import WittyService.GuardedRuns
import WittyService.TextParts
import WittyService.TextSegments

/-! The `cvekit_runs` of a task and its task-all log: `begin_cvekit_run`, `complete_cvekit_run` and
`_merge_ready_runs`, each of which holds the log lock of the task. A log is the text it has; what
`redact` makes of a text is a parameter. -/
namespace WittyService

open GuardedRuns

/-- An entry of `cvekit_runs`. -/
structure CvekitRun where
  sequence : Nat
  cvekitRunId : PyStr
  operation : PyStr
  startedAt : PyStr
  status : PyStr := "running".toList
  endedAt : PyStr := []
  merged : Bool := false
  deriving DecidableEq, Repr

/-- The status is neither missing nor `running`. -/
def CvekitRun.hasEnded (run : CvekitRun) : Bool := run.status ≠ "running".toList

def CvekitRun.finish (run : CvekitRun) (success : Bool) (endedAt : PyStr) : CvekitRun :=
  { run with status := if success then "success".toList else "failed".toList, endedAt }

def CvekitRun.header (taskId : PyStr) (run : CvekitRun) : PyStr :=
  let operation := if run.operation = [] then "cvekit".toList else run.operation
  "--- task run ".toList ++ (Nat.repr run.sequence).toList ++ " | ".toList ++ run.cvekitRunId ++
    " | ".toList ++ taskId ++ " | ".toList ++ operation ++ " | ".toList ++ run.status ++
      " | started=".toList ++ run.startedAt ++ " | ended=".toList ++ run.endedAt ++ " ---\n".toList

/-- `existing` with another section. -/
def appendSection (existing content : PyStr) : PyStr :=
  if existing = [] then content else existing ++ '\n' :: content

/-- The file `task.json`, as far as it has the runs, and the task-all log. Which runs were
completed, and the logs they had when they last were, are not kept by the service. -/
structure CvekitLogs where
  taskId : PyStr
  runs : List CvekitRun := []
  taskAll : PyStr := []
  completed : List PyStr := []
  logs : PyStr → List PyStr := fun _ => []

inductive CvekitLogsAction where
  | begins (cvekitRunId operation startedAt : PyStr)
  /-- `sourceLogs` are the readable logs the run was completed with, and `found` those that
  `_find_run_all_logs` finds for another run. With `fault`, an `OSError` ends the call when so many
  characters are appended. -/
  | completes (cvekitRunId : PyStr) (success : Bool) (endedAt : PyStr) (sourceLogs : List PyStr)
    (found : PyStr → List PyStr) (fault : Option Nat)

def mergedMax (runs : List CvekitRun) : Nat :=
  ((runs.filter (·.merged)).map (·.sequence)).foldl max 0

def readyIdx (runs : List CvekitRun) : Option Nat :=
  runs.findIdx? fun run => !run.merged && run.hasEnded && run.sequence == mergedMax runs + 1

namespace CvekitLogs

variable (redact : PyStr → PyStr)

def sectionOf (taskId : PyStr) (run : CvekitRun) (logs : List PyStr) : Option PyStr :=
  if logs = [] then none
  else some (redact (['\n'].intercalate (logs.flatMap fun log => [run.header taskId, log])))

def mergeInto (taskId : PyStr) (logs : PyStr → List PyStr) (run : CvekitRun) (existing : PyStr) :
    PyStr :=
  match sectionOf redact taskId run (logs run.cvekitRunId) with
  | some content =>
    if run.cvekitRunId <:+: existing then existing else appendSection existing content
  | none => existing

/-- `_merge_ready_runs`, for as many runs as there may be. -/
def mergeReadyRuns (taskId : PyStr) (logs : PyStr → List PyStr) :
    Nat → List CvekitRun → PyStr → List CvekitRun × PyStr
  | 0, runs, existing => (runs, existing)
  | fuel + 1, runs, existing =>
    match (readyIdx runs).bind fun i => runs[i]?.map (i, ·) with
    | none => (runs, existing)
    | some (i, ready) =>
      mergeReadyRuns taskId logs fuel (runs.set i { ready with merged := true })
        (mergeInto redact taskId logs ready existing)

/-- The rest of `complete_cvekit_run`, for the entry of the run. -/
def complete (s : CvekitLogs) (i : Nat) (entry : CvekitRun) (logs : PyStr → List PyStr)
    (fault : Option Nat) : CvekitLogs :=
  let runs := s.runs.set i entry
  let (runs, taskAll) := mergeReadyRuns redact s.taskId logs runs.length runs s.taskAll
  match fault with
  | none => { s with runs, taskAll }
  | some n => { s with taskAll := taskAll.take (s.taskAll.length + n) }

def step (s : CvekitLogs) : CvekitLogsAction → Option CvekitLogs
  | .begins cvekitRunId operation startedAt =>
    -- the id is new
    if cvekitRunId ∈ s.runs.map (·.cvekitRunId) then none
    else some { s with
      runs := s.runs ++ [{
        sequence := (s.runs.map (·.sequence)).foldl max 0 + 1
        cvekitRunId
        operation
        startedAt }] }
  | .completes cvekitRunId success endedAt sourceLogs found fault =>
    (s.runs.findIdx? fun run => run.cvekitRunId == cvekitRunId).bind fun i =>
      s.runs[i]?.map fun entry =>
        let s := { s with completed := cvekitRunId :: s.completed }
        if entry.merged then s
        else
          let logs := Function.update found cvekitRunId sourceLogs
          { s with logs := Function.update s.logs cvekitRunId sourceLogs }.complete redact i
            (entry.finish success endedAt) logs fault

end CvekitLogs

/-! When the task-all log has the section of every run once and in order: no call of
`complete_cvekit_run` ends with an error, no section speaks of a run that is not merged yet, and a
parked run still has the logs it was completed with. -/

theorem infix_of_infix_appendSection {x existing content : PyStr} (hx : '\n' ∉ x)
    (h : x <:+: appendSection existing content) : x <:+: existing ∨ x <:+: content := by
  unfold appendSection at h
  split at h
  · exact .inr h
  · exact TextParts.infix_of_infix_break hx h

variable {l : List Nat}

theorem le_foldl_max {a x : Nat} (h : x ≤ a ∨ x ∈ l) : x ≤ l.foldl max a := by
  induction l generalizing a with
  | nil => exact h.resolve_right List.not_mem_nil
  | cons b l ih =>
    refine ih ?_
    obtain h | h := h
    · exact .inl (Nat.le_trans h (Nat.le_max_left a b))
    · obtain rfl | h := List.mem_cons.mp h
      · exact .inl (Nat.le_max_right a x)
      · exact .inr h

theorem foldl_max_le {a b : Nat} (ha : a ≤ b) (h : ∀ x ∈ l, x ≤ b) :
    l.foldl max a ≤ b := by
  induction l generalizing a with
  | nil => exact ha
  | cons c l ih =>
    refine ih (Nat.max_le.mpr ⟨ha, h c List.mem_cons_self⟩) fun x hx => ?_
    exact h x (List.mem_cons_of_mem c hx)

namespace CvekitLogs

variable {redact : PyStr → PyStr} {taskId text : PyStr} {logs found : PyStr → List PyStr}
  {runs : List CvekitRun} {run : CvekitRun} {m i : Nat} {s s' : CvekitLogs}

def joined (redact : PyStr → PyStr) (taskId : PyStr) (logs : PyStr → List PyStr)
    (runs : List CvekitRun) : PyStr :=
  (runs.filterMap fun run => sectionOf redact taskId run (logs run.cvekitRunId)).foldl
    appendSection []

/-- The first `m` runs are merged, their sections are the log, and it has the id of no other run. -/
structure Merging (redact : PyStr → PyStr) (taskId : PyStr) (logs : PyStr → List PyStr)
    (runs : List CvekitRun) (text : PyStr) (m : Nat) : Prop where
  bound : m ≤ runs.length
  sequences : ∀ i run, runs[i]? = some run → run.sequence = i + 1
  ids : (runs.map (·.cvekitRunId)).Nodup
  merged : ∀ i run, runs[i]? = some run → (run.merged = true ↔ i < m)
  log : text = joined redact taskId logs (runs.take m)
  unbroken : ∀ run ∈ runs, '\n' ∉ run.cvekitRunId
  fresh : ∀ run ∈ runs, run.merged = false → ¬ run.cvekitRunId <:+: text
  ended : ∀ run ∈ runs, run.merged = true → run.hasEnded = true

/-- No section to be merged has the id of another run to be merged. -/
def Unmentioned (runs : List CvekitRun) (next : CvekitRun → Option PyStr) : Prop :=
  ∀ run ∈ runs, ∀ run' ∈ runs, run.merged = false → run'.merged = false →
    run.cvekitRunId ≠ run'.cvekitRunId → ∀ content ∈ next run, ¬ run'.cvekitRunId <:+: content

instance (runs : List CvekitRun) (next : CvekitRun → Option PyStr) :
    Decidable (Unmentioned runs next) := by
  unfold Unmentioned
  infer_instance

section

variable (h : Merging redact taskId logs runs text m)
include h

theorem mergedMax_eq : mergedMax runs = m := by
  refine Nat.le_antisymm (foldl_max_le (Nat.zero_le m) fun x hx => ?_) ?_
  · obtain ⟨run, hrun, rfl⟩ := List.mem_map.mp hx
    obtain ⟨hmem, hmerged⟩ := List.mem_filter.mp hrun
    obtain ⟨i, hget⟩ := List.mem_iff_getElem?.mp hmem
    rw [h.sequences i run hget]
    exact (h.merged i run hget).mp hmerged
  · cases m with
    | zero => exact Nat.zero_le _
    | succ m =>
      have hlt : m < runs.length := h.bound
      have hget : runs[m]? = some runs[m] := List.getElem?_eq_getElem hlt
      refine le_foldl_max (.inr (List.mem_map.mpr ⟨runs[m], List.mem_filter.mpr
        ⟨List.getElem_mem hlt, ?_⟩, h.sequences m _ hget⟩))
      exact (h.merged m _ hget).mpr (Nat.lt_succ_self m)

theorem readyIdx_eq_some (hready : readyIdx runs = some i) :
    i = m ∧ ∃ run, runs[m]? = some run ∧ run.hasEnded = true := by
  obtain ⟨hi, hp, -⟩ := List.findIdx?_eq_some_iff_getElem.mp hready
  have hget : runs[i]? = some runs[i] := List.getElem?_eq_getElem hi
  rw [mergedMax_eq h, h.sequences i _ hget] at hp
  simp only [Bool.and_eq_true, Bool.not_eq_true', beq_iff_eq] at hp
  obtain rfl : i = m := by omega
  exact ⟨rfl, runs[i], hget, hp.1.2⟩

theorem readyIdx_eq_none (hready : readyIdx runs = none) (hget : runs[m]? = some run)
    : run.hasEnded = false := by
  have hp := List.findIdx?_eq_none_iff.mp hready run (List.mem_of_getElem? hget)
  have hmerged : run.merged = false := by
    rw [← Bool.not_eq_true, h.merged m run hget]
    exact Nat.lt_irrefl m
  rw [mergedMax_eq h, h.sequences m run hget, hmerged] at hp
  simpa using hp

end

theorem joined_take_succ (hget : runs[m]? = some run) :
    joined redact taskId logs (runs.take (m + 1)) =
      match sectionOf redact taskId run (logs run.cvekitRunId) with
      | some content => appendSection (joined redact taskId logs (runs.take m)) content
      | none => joined redact taskId logs (runs.take m) := by
  unfold joined
  rw [List.take_add_one, hget, Option.toList_some, List.filterMap_append, List.foldl_append]
  split
  next content heq =>
    simp [heq]
  next heq => simp only [List.filterMap_cons, heq, List.filterMap_nil, List.foldl_nil]

variable {r r' : CvekitRun} {cvekitRunId : PyStr}

theorem getElem?_set_eq_some (h : (runs.set m r')[i]? = some r) :
    (i = m ∧ r = r') ∨ (i ≠ m ∧ runs[i]? = some r) := by
  by_cases hi : m = i
  · subst hi
    obtain ⟨hlt, hget⟩ := List.getElem?_eq_some_iff.mp h
    rw [List.getElem_set_self] at hget
    exact .inl ⟨rfl, hget.symm⟩
  · rw [List.getElem?_set_ne hi] at h
    exact .inr ⟨Ne.symm hi, h⟩

theorem id_ne (h : (runs.map (·.cvekitRunId)).Nodup) {j : Nat}
    (hget : runs[i]? = some r) (hget' : runs[j]? = some r') (hij : i ≠ j) :
    r.cvekitRunId ≠ r'.cvekitRunId := by
  intro heq
  refine hij ((List.getElem?_inj ?_ h).mp ?_)
  · rw [List.length_map]
    exact (List.getElem?_eq_some_iff.mp hget).1
  · rw [List.getElem?_map, List.getElem?_map, hget, hget']
    exact congrArg some heq

theorem mergeInto_eq (redact : PyStr → PyStr) (taskId : PyStr) (logs : PyStr → List PyStr)
    (hfresh : ¬ run.cvekitRunId <:+: text) :
    mergeInto redact taskId logs run text =
      match sectionOf redact taskId run (logs run.cvekitRunId) with
      | some content => appendSection text content
      | none => text := by
  unfold mergeInto
  cases sectionOf redact taskId run (logs run.cvekitRunId) with
  | some content => exact if_neg hfresh
  | none => rfl

theorem map_set_eq {β : Type} {f : CvekitRun → β} (run' : CvekitRun) (hget : runs[m]? = some run)
    (hf : f run' = f run) : (runs.set m run').map f = runs.map f := by
  refine List.ext_getElem? fun j => ?_
  rw [List.getElem?_map, List.getElem?_map]
  by_cases hj : m = j
  · subst hj
    rw [List.getElem?_set_self (List.getElem?_eq_some_iff.mp hget).1, hget]
    exact congrArg some hf
  · rw [List.getElem?_set_ne hj]

theorem merging_next (h : Merging redact taskId logs runs text m)
    (hquiet : Unmentioned runs fun run => sectionOf redact taskId run (logs run.cvekitRunId))
    (hget : runs[m]? = some run) (hended : run.hasEnded = true)
    (hfound : found run.cvekitRunId = logs run.cvekitRunId) :
    Merging redact taskId logs (runs.set m { run with merged := true })
      (mergeInto redact taskId found run text) (m + 1) := by
  have hmem := List.mem_of_getElem? hget
  have hlt : m < runs.length := (List.getElem?_eq_some_iff.mp hget).1
  have hunmerged : run.merged = false := by
    rw [← Bool.not_eq_true, h.merged m run hget]
    exact Nat.lt_irrefl m
  have hget' : (runs.set m { run with merged := true })[m]? = some { run with merged := true } :=
    List.getElem?_set_self hlt
  have hold {r : CvekitRun} (hr : r ∈ runs.set m { run with merged := true })
      (hmerged : r.merged = false) : r ∈ runs ∧ run.cvekitRunId ≠ r.cvekitRunId := by
    obtain ⟨j, hj⟩ := List.mem_iff_getElem?.mp hr
    obtain ⟨-, rfl⟩ | ⟨hne, hj⟩ := getElem?_set_eq_some hj
    · cases hmerged
    · exact ⟨List.mem_of_getElem? hj, id_ne h.ids hget hj hne.symm⟩
  have htext := mergeInto_eq redact taskId found (h.fresh run hmem hunmerged)
  rw [hfound] at htext
  refine ⟨?_, fun i r hr => ?_, ?_, fun i r hr => ?_, ?_, fun r hr => ?_,
    fun r hr hmerged hinfix => ?_, fun r hr hmerged => ?_⟩
  · rw [List.length_set]
    exact hlt
  · obtain ⟨rfl, rfl⟩ | ⟨-, hr⟩ := getElem?_set_eq_some hr
    · exact h.sequences i run hget
    · exact h.sequences i r hr
  · rw [map_set_eq { run with merged := true } hget rfl]
    exact h.ids
  · obtain ⟨rfl, rfl⟩ | ⟨hne, hr⟩ := getElem?_set_eq_some hr
    · exact ⟨fun _ => Nat.lt_succ_self i, fun _ => rfl⟩
    · rw [h.merged i r hr]
      omega
  · have hsection : sectionOf redact taskId { run with merged := true } =
        sectionOf redact taskId run := rfl
    rw [joined_take_succ hget', List.take_set_of_le (Nat.le_refl m), hsection, htext, h.log]
  · obtain ⟨j, hj⟩ := List.mem_iff_getElem?.mp hr
    obtain ⟨-, rfl⟩ | ⟨-, hj⟩ := getElem?_set_eq_some hj
    · exact h.unbroken run hmem
    · exact h.unbroken r (List.mem_of_getElem? hj)
  · obtain ⟨hr, hne⟩ := hold hr hmerged
    rw [htext] at hinfix
    split at hinfix
    next content hcontent =>
      obtain hinfix | hinfix := infix_of_infix_appendSection (h.unbroken r hr) hinfix
      · exact h.fresh r hr hmerged hinfix
      · exact hquiet run hmem r hr hunmerged hmerged hne content hcontent hinfix
    · exact h.fresh r hr hmerged hinfix
  · obtain hr | rfl := List.mem_or_eq_of_mem_set hr
    · exact h.ended r hr hmerged
    · exact hended

theorem merging_mergeReadyRuns
    (hquiet : Unmentioned runs fun run => sectionOf redact taskId run (logs run.cvekitRunId))
    (hfound : ∀ run ∈ runs, run.merged = false → run.hasEnded = true →
      found run.cvekitRunId = logs run.cvekitRunId)
    {fuel : Nat} (hfuel : runs.length ≤ m + fuel) (h : Merging redact taskId logs runs text m) :
    ∃ n, Merging redact taskId logs (mergeReadyRuns redact taskId found fuel runs text).1
        (mergeReadyRuns redact taskId found fuel runs text).2 n ∧
      (∀ run, (mergeReadyRuns redact taskId found fuel runs text).1[n]? = some run →
        run.hasEnded = false) ∧
      (mergeReadyRuns redact taskId found fuel runs text).1.map
        (fun run => { run with merged := false }) =
          runs.map fun run => { run with merged := false } := by
  induction fuel generalizing runs text m with
  | zero =>
    refine ⟨m, h, fun run hget => ?_, rfl⟩
    have hlt : m < runs.length := (List.getElem?_eq_some_iff.mp hget).1
    omega
  | succ fuel ih =>
    cases hready : readyIdx runs with
    | none =>
      have heq : mergeReadyRuns redact taskId found (fuel + 1) runs text = (runs, text) := by
        rw [mergeReadyRuns, hready]
        rfl
      rw [heq]
      exact ⟨m, h, fun run hget => readyIdx_eq_none h hready hget, rfl⟩
    | some i =>
      obtain ⟨rfl, run, hget, hended⟩ := readyIdx_eq_some h hready
      have heq : mergeReadyRuns redact taskId found (fuel + 1) runs text =
          mergeReadyRuns redact taskId found fuel (runs.set i { run with merged := true })
            (mergeInto redact taskId found run text) := by
        rw [mergeReadyRuns, hready, Option.bind_some, hget]
        rfl
      have hmem := List.mem_of_getElem? hget
      have hunmerged : run.merged = false := by
        rw [← Bool.not_eq_true, h.merged i run hget]
        exact Nat.lt_irrefl i
      have hnext := merging_next h hquiet hget hended (hfound run hmem hunmerged hended)
      have hold {r : CvekitRun} (hr : r ∈ runs.set i { run with merged := true })
          (hmerged : r.merged = false) : r ∈ runs := by
        obtain hr | rfl := List.mem_or_eq_of_mem_set hr
        · exact hr
        · cases hmerged
      have hquiet' : Unmentioned (runs.set i { run with merged := true }) fun run =>
          sectionOf redact taskId run (logs run.cvekitRunId) :=
        fun r hr r' hr' hmerged hmerged' =>
          hquiet r (hold hr hmerged) r' (hold hr' hmerged') hmerged hmerged'
      have hfound' : ∀ r ∈ runs.set i { run with merged := true }, r.merged = false →
          r.hasEnded = true → found r.cvekitRunId = logs r.cvekitRunId :=
        fun r hr hmerged => hfound r (hold hr hmerged) hmerged
      have hfuel' : (runs.set i { run with merged := true }).length ≤ i + 1 + fuel := by
        rw [List.length_set]
        omega
      obtain ⟨n, hn, hlast, hsame⟩ := ih hquiet' hfound' hfuel' hnext
      rw [heq]
      exact ⟨n, hn, hlast, hsame.trans (map_set_eq _ hget rfl)⟩

structure Aggregated (redact : PyStr → PyStr) (s : CvekitLogs) : Prop where
  merged : ∀ run ∈ s.runs, run.merged = true
  ordered : (s.runs.map (·.sequence)).Pairwise (· < ·)
  log : s.taskAll = joined redact s.taskId s.logs s.runs

/-- The runs up to the first that has not ended are merged. -/
structure Drained (redact : PyStr → PyStr) (s : CvekitLogs) : Prop where
  merging : ∃ m, Merging redact s.taskId s.logs s.runs s.taskAll m ∧
    ∀ run, s.runs[m]? = some run → run.hasEnded = false
  ended : ∀ run ∈ s.runs, run.cvekitRunId ∈ s.completed → run.hasEnded = true
  known : ∀ id ∈ s.completed, id ∈ s.runs.map (·.cvekitRunId)
  unlogged : ∀ id, id ∉ s.runs.map (·.cvekitRunId) → s.logs id = []

theorem aggregated_of_drained (hs : s.Drained redact)
    (h : ∀ run ∈ s.runs, run.cvekitRunId ∈ s.completed) : s.Aggregated redact := by
  obtain ⟨m, hm, hlast⟩ := hs.merging
  have hlength : m = s.runs.length := by
    refine Nat.le_antisymm hm.bound (Nat.le_of_not_lt fun hlt => ?_)
    have hget : s.runs[m]? = some s.runs[m] := List.getElem?_eq_getElem hlt
    have hended := hs.ended _ (List.getElem_mem hlt) (h _ (List.getElem_mem hlt))
    rw [hlast _ hget] at hended
    cases hended
  refine ⟨fun run hmem => ?_, ?_, ?_⟩
  · obtain ⟨i, hget⟩ := List.mem_iff_getElem?.mp hmem
    rw [hm.merged i run hget, hlength]
    exact (List.getElem?_eq_some_iff.mp hget).1
  · refine List.pairwise_iff_getElem.mpr fun i j hi hj hij => ?_
    rw [List.getElem_map, List.getElem_map, hm.sequences i _ (List.getElem?_eq_getElem _),
      hm.sequences j _ (List.getElem?_eq_getElem _)]
    exact Nat.succ_lt_succ hij
  · rw [hm.log, hlength, List.take_length]

def nextSection (redact : PyStr → PyStr) (s : CvekitLogs) (cvekitRunId : PyStr) (success : Bool)
    (endedAt : PyStr) (sourceLogs : List PyStr) (run : CvekitRun) : Option PyStr :=
  sectionOf redact s.taskId
    (if run.cvekitRunId = cvekitRunId then run.finish success endedAt else run)
    (Function.update s.logs cvekitRunId sourceLogs run.cvekitRunId)

/-- The parked runs have the logs they were completed with. -/
def ParkedFound (s : CvekitLogs) (cvekitRunId : PyStr) (found : PyStr → List PyStr) : Prop :=
  ∀ run ∈ s.runs, run.merged = false → run.hasEnded = true → run.cvekitRunId ≠ cvekitRunId →
    found run.cvekitRunId = s.logs run.cvekitRunId

instance (s : CvekitLogs) (cvekitRunId : PyStr) (found : PyStr → List PyStr) :
    Decidable (s.ParkedFound cvekitRunId found) := by
  unfold ParkedFound
  infer_instance

/-- The condition on a step: the id of a new run is one word that the log does not have, and a call
of `complete_cvekit_run` ends without an error, when the parked runs have the logs they were
completed with and no section to be merged has the id of another run. -/
def Steady (redact : PyStr → PyStr) (s : CvekitLogs) : CvekitLogsAction → Prop
  | .begins cvekitRunId _ _ => '\n' ∉ cvekitRunId ∧ ¬ cvekitRunId <:+: s.taskAll
  | .completes cvekitRunId success endedAt sourceLogs found fault => fault = none ∧
    s.ParkedFound cvekitRunId found ∧
      Unmentioned s.runs (s.nextSection redact cvekitRunId success endedAt sourceLogs)

instance (s : CvekitLogs) (a : CvekitLogsAction) : Decidable (s.Steady redact a) := by
  cases a <;> unfold Steady <;> infer_instance

theorem sequence_last (h : Merging redact taskId logs runs text m) :
    (runs.map (·.sequence)).foldl max 0 = runs.length := by
  refine Nat.le_antisymm (foldl_max_le (Nat.zero_le _) fun x hx => ?_) ?_
  · obtain ⟨run, hmem, rfl⟩ := List.mem_map.mp hx
    obtain ⟨i, hget⟩ := List.mem_iff_getElem?.mp hmem
    rw [h.sequences i run hget]
    exact (List.getElem?_eq_some_iff.mp hget).1
  · obtain hlength | hlength := Nat.eq_zero_or_pos runs.length
    · rw [hlength]
      exact Nat.zero_le _
    · have hget : runs[runs.length - 1]? = some runs[runs.length - 1] :=
        List.getElem?_eq_getElem (Nat.sub_lt hlength Nat.one_pos)
      have hlast := h.sequences _ _ hget
      rw [Nat.sub_add_cancel hlength] at hlast
      exact le_foldl_max (.inr (List.mem_map.mpr ⟨_, List.mem_of_getElem? hget, hlast⟩))

theorem drained_begins (hs : s.Drained redact) {operation startedAt : PyStr}
    (hg : s.Steady redact (.begins cvekitRunId operation startedAt))
    (h : s.step redact (.begins cvekitRunId operation startedAt) = some s') :
    s'.Drained redact := by
  obtain ⟨hnew, h⟩ := Option.ite_none_left_eq_some.mp h
  cases h
  obtain ⟨hbreak, hfresh⟩ := hg
  obtain ⟨m, hm, hlast⟩ := hs.merging
  have hmem {p : CvekitRun → Prop} {run' : CvekitRun} (hold : ∀ run ∈ s.runs, p run) (hp : p run') :
      ∀ run ∈ s.runs ++ [run'], p run := by
    intro run hrun
    obtain hrun | hrun := List.mem_append.mp hrun
    · exact hold run hrun
    · exact List.mem_singleton.mp hrun ▸ hp
  have hget {run' : CvekitRun} {i : Nat} {run : CvekitRun}
      (h : (s.runs ++ [run'])[i]? = some run) :
      s.runs[i]? = some run ∨ (i = s.runs.length ∧ run = run') := by
    rw [List.getElem?_append] at h
    split at h
    · exact .inl h
    next hi =>
      obtain ⟨hlt, hget⟩ := List.getElem?_eq_some_iff.mp h
      rw [List.length_singleton] at hlt
      have hzero : i - s.runs.length = 0 := by omega
      refine .inr ⟨by omega, ?_⟩
      simp only [hzero, List.getElem_cons_zero] at hget
      exact hget.symm
  refine ⟨⟨m, ⟨?_, fun i run hi => ?_, ?_, fun i run hi => ?_, ?_, hmem hm.unbroken hbreak,
    hmem hm.fresh fun _ => hfresh, hmem hm.ended nofun⟩, fun run hi => ?_⟩,
    hmem hs.ended fun hcompleted => absurd (hs.known _ hcompleted) hnew, fun id hid => ?_,
    fun id hid => hs.unlogged id fun hold => hid ?_⟩
  · rw [List.length_append]
    exact Nat.le_trans hm.bound (Nat.le_add_right _ _)
  · obtain hi | ⟨rfl, rfl⟩ := hget hi
    · exact hm.sequences i run hi
    · exact congrArg Nat.succ (sequence_last hm)
  · rw [List.map_append, List.map_singleton]
    refine List.nodup_append.mpr ⟨hm.ids, List.pairwise_singleton _ _, fun a ha b hb heq => hnew ?_⟩
    obtain rfl := List.mem_singleton.mp hb
    exact heq ▸ ha
  · obtain hi | ⟨rfl, rfl⟩ := hget hi
    · exact hm.merged i run hi
    · exact ⟨nofun, fun hlt => absurd hm.bound (Nat.not_le_of_lt hlt)⟩
  · rw [List.take_append_of_le_length hm.bound]
    exact hm.log
  · obtain hi | ⟨-, rfl⟩ := hget hi
    · exact hlast run hi
    · rfl
  · rw [List.map_append]
    exact List.mem_append_left _ (hs.known id hid)
  · rw [List.map_append]
    exact List.mem_append_left _ hold

section

variable {runs' : List CvekitRun}
  (hsame : runs'.map (fun run => { run with merged := false }) = runs.map fun run => { run with merged := false })
include hsame

theorem exists_same (hmem : run ∈ runs') :
    ∃ run' ∈ runs, run.cvekitRunId = run'.cvekitRunId ∧ run.hasEnded = run'.hasEnded := by
  have hrun : { run with merged := false } ∈ runs.map fun run : CvekitRun =>
      { run with merged := false } := hsame ▸ List.mem_map.mpr ⟨run, hmem, rfl⟩
  obtain ⟨run', hmem', heq⟩ := List.mem_map.mp hrun
  obtain ⟨-, hid, -, -, hstatus, -⟩ := CvekitRun.mk.inj heq
  refine ⟨run', hmem', hid.symm, ?_⟩
  rw [CvekitRun.hasEnded, CvekitRun.hasEnded, hstatus]

theorem map_id_same :
    runs'.map (·.cvekitRunId) = runs.map (·.cvekitRunId) := by
  have h := congrArg (List.map (·.cvekitRunId)) hsame
  rwa [List.map_map, List.map_map] at h

end

theorem hasEnded_finish (run : CvekitRun) (success : Bool) (endedAt : PyStr) :
    (run.finish success endedAt).hasEnded = true := by
  cases success <;> rfl

theorem joined_congr {logs' : PyStr → List PyStr}
    (h : ∀ run ∈ runs, logs' run.cvekitRunId = logs run.cvekitRunId) :
    joined redact taskId logs' runs = joined redact taskId logs runs := by
  refine congrArg _ (List.filterMap_congr fun run hmem => ?_)
  rw [h run hmem]

theorem merging_finish (h : Merging redact taskId logs runs text m) (hget : runs[i]? = some run)
    (hunmerged : run.merged = false) (success : Bool) (endedAt : PyStr) (sourceLogs : List PyStr) :
    Merging redact taskId (Function.update logs run.cvekitRunId sourceLogs)
      (runs.set i (run.finish success endedAt)) text m := by
  have hmi : m ≤ i := by
    by_contra hlt
    rw [(h.merged i run hget).mpr (Nat.lt_of_not_le hlt)] at hunmerged
    cases hunmerged
  have hmem := List.mem_of_getElem? hget
  have hset {p : CvekitRun → Prop} (hold : ∀ r ∈ runs, p r) (hp : p (run.finish success endedAt)) :
      ∀ r ∈ runs.set i (run.finish success endedAt), p r := by
    intro r hr
    obtain hr | rfl := List.mem_or_eq_of_mem_set hr
    · exact hold r hr
    · exact hp
  refine ⟨?_, fun j r hr => ?_, ?_, fun j r hr => ?_, ?_, hset h.unbroken (h.unbroken run hmem),
    hset h.fresh (h.fresh run hmem), hset h.ended fun _ => hasEnded_finish run success endedAt⟩
  · rw [List.length_set]
    exact h.bound
  · obtain ⟨rfl, rfl⟩ | ⟨-, hr⟩ := getElem?_set_eq_some hr
    · exact h.sequences j run hget
    · exact h.sequences j r hr
  · rw [map_set_eq (run.finish success endedAt) hget rfl]
    exact h.ids
  · obtain ⟨rfl, rfl⟩ | ⟨-, hr⟩ := getElem?_set_eq_some hr
    · exact h.merged j run hget
    · exact h.merged j r hr
  · rw [List.take_set_of_le hmi, h.log]
    refine (joined_congr fun r hr => Function.update_of_ne ?_ _ _).symm
    obtain ⟨j, hj⟩ := List.mem_iff_getElem?.mp hr
    rw [List.getElem?_take] at hj
    split at hj
    next hlt => exact id_ne h.ids hj hget (by omega)
    · cases hj

theorem complete_none (s : CvekitLogs) (i : Nat) (entry : CvekitRun) :
    s.complete redact i entry logs none = { s with
      runs := (mergeReadyRuns redact s.taskId logs (s.runs.set i entry).length
        (s.runs.set i entry) s.taskAll).1
      taskAll := (mergeReadyRuns redact s.taskId logs (s.runs.set i entry).length
        (s.runs.set i entry) s.taskAll).2 } := rfl

theorem drained_completes (hs : s.Drained redact) {endedAt : PyStr} {success : Bool}
    {sourceLogs : List PyStr} {fault : Option Nat}
    (hg : s.Steady redact (.completes cvekitRunId success endedAt sourceLogs found fault))
    (h : s.step redact (.completes cvekitRunId success endedAt sourceLogs found fault) = some s') :
    s'.Drained redact := by
  obtain ⟨rfl, hparked, hquiet⟩ := hg
  obtain ⟨i, hi, h⟩ := Option.bind_eq_some_iff.mp h
  obtain ⟨entry, hget, h⟩ := Option.map_eq_some_iff.mp h
  obtain ⟨hlt, hid, -⟩ := List.findIdx?_eq_some_iff_getElem.mp hi
  obtain rfl : entry.cvekitRunId = cvekitRunId := by
    rw [List.getElem?_eq_getElem hlt, Option.some.injEq] at hget
    exact hget ▸ eq_of_beq hid
  have hmem := List.mem_of_getElem? hget
  obtain ⟨m, hm, hlast⟩ := hs.merging
  have hknown : entry.cvekitRunId ∈ s.runs.map (·.cvekitRunId) :=
    List.mem_map.mpr ⟨entry, hmem, rfl⟩
  have hother {r : CvekitRun} {j : Nat} (hr : s.runs[j]? = some r) (hne : j ≠ i) :
      r.cvekitRunId ≠ entry.cvekitRunId := id_ne hm.ids hr hget hne
  cases hmerged : entry.merged with
  | true =>
    simp only [hmerged, if_true] at h
    cases h
    refine ⟨⟨m, hm, hlast⟩, fun r hr hcompleted => ?_, fun id hcompleted => ?_, hs.unlogged⟩
    · obtain heq | hcompleted := List.mem_cons.mp hcompleted
      · obtain ⟨j, hj⟩ := List.mem_iff_getElem?.mp hr
        by_cases hji : j = i
        · subst hji
          obtain rfl := Option.some.inj (hj.symm.trans hget)
          exact hm.ended r hr hmerged
        · exact absurd heq (hother hj hji)
      · exact hs.ended r hr hcompleted
    · obtain rfl | hcompleted := List.mem_cons.mp hcompleted
      · exact hknown
      · exact hs.known id hcompleted
  | false =>
    simp only [hmerged, Bool.false_eq_true, if_false, complete_none] at h
    have hcase {r : CvekitRun} (hr : r ∈ s.runs.set i (entry.finish success endedAt)) :
        r = entry.finish success endedAt ∨
          (r ∈ s.runs ∧ r.cvekitRunId ≠ entry.cvekitRunId) := by
      obtain ⟨j, hj⟩ := List.mem_iff_getElem?.mp hr
      obtain ⟨-, rfl⟩ | ⟨hji, hj⟩ := getElem?_set_eq_some hj
      · exact .inl rfl
      · exact .inr ⟨List.mem_of_getElem? hj, hother hj hji⟩
    have hfound : ∀ r ∈ s.runs.set i (entry.finish success endedAt), r.merged = false →
        r.hasEnded = true → Function.update found entry.cvekitRunId sourceLogs r.cvekitRunId =
          Function.update s.logs entry.cvekitRunId sourceLogs r.cvekitRunId := by
      intro r hr hunmerged hended
      obtain rfl | ⟨hr, hne⟩ := hcase hr
      · refine (Function.update_self _ _ _).trans ?_
        exact (Function.update_self entry.cvekitRunId sourceLogs s.logs).symm
      · rw [Function.update_of_ne hne, Function.update_of_ne hne]
        exact hparked r hr hunmerged hended hne
    have hnext : Unmentioned (s.runs.set i (entry.finish success endedAt)) fun run =>
        sectionOf redact s.taskId run
          (Function.update s.logs entry.cvekitRunId sourceLogs run.cvekitRunId) := by
      intro r hr r' hr' hunmerged hunmerged' hne content hcontent
      -- both are entries of the runs before, one of them perhaps completed now
      have hquiet' (r₀ : CvekitRun) (hr₀ : r₀ ∈ s.runs) (hunmerged₀ : r₀.merged = false)
          (hid₀ : r₀.cvekitRunId = r'.cvekitRunId) : ¬ r'.cvekitRunId <:+: content := by
        obtain rfl | ⟨hr, hne'⟩ := hcase hr
        · refine hid₀ ▸ hquiet entry hmem r₀ hr₀ hmerged hunmerged₀ (hid₀ ▸ hne) content ?_
          rw [nextSection, if_pos rfl]
          exact hcontent
        · refine hid₀ ▸ hquiet r hr r₀ hr₀ hunmerged hunmerged₀ (hid₀ ▸ hne) content ?_
          rw [nextSection, if_neg hne']
          exact hcontent
      obtain rfl | ⟨hr', -⟩ := hcase hr'
      · exact hquiet' entry hmem hmerged rfl
      · exact hquiet' r' hr' hunmerged' rfl
    obtain ⟨n, hn, hlast', hsame⟩ := merging_mergeReadyRuns hnext hfound (Nat.le_add_left _ m)
      (merging_finish hm hget hmerged success endedAt sourceLogs)
    have hids := (map_id_same hsame).trans (map_set_eq (entry.finish success endedAt) hget rfl)
    rw [← h]
    refine ⟨⟨n, hn, hlast'⟩, fun r hr hcompleted => ?_, fun id hcompleted => ?_, fun id hid => ?_⟩
    · obtain ⟨r', hr', hid', hended⟩ := exists_same hsame hr
      rw [hended]
      obtain rfl | ⟨hr', hne⟩ := hcase hr'
      · exact hasEnded_finish entry success endedAt
      · refine hs.ended r' hr' ((List.mem_cons.mp hcompleted).elim (fun heq => ?_) fun h => ?_)
        · exact absurd (hid'.symm.trans heq) hne
        · exact hid' ▸ h
    · rw [hids]
      obtain rfl | hcompleted := List.mem_cons.mp hcompleted
      · exact hknown
      · exact hs.known id hcompleted
    · rw [hids] at hid
      have hne : id ≠ entry.cvekitRunId := by
        rintro rfl
        exact hid hknown
      exact (Function.update_of_ne hne _ _).trans (hs.unlogged id hid)

theorem drained_step {a : CvekitLogsAction} (hs : s.Drained redact) (hg : s.Steady redact a)
    (h : s.step redact a = some s') : s'.Drained redact := by
  cases a with
  | begins cvekitRunId operation startedAt => exact drained_begins hs hg h
  | completes cvekitRunId success endedAt sourceLogs found fault => exact drained_completes hs hg h

theorem drained_first (redact : PyStr → PyStr) (taskId : PyStr) :
    Drained redact { taskId } := by
  have hmerging : Merging redact taskId (fun _ => []) [] [] 0 :=
    ⟨Nat.le_refl 0, nofun, List.nodup_nil, nofun, rfl, nofun, nofun, nofun⟩
  exact ⟨⟨0, hmerging, nofun⟩, nofun, nofun, fun _ _ => rfl⟩

/-- As long as the calls are steady, the log has the sections of all runs in order whenever every
run has been completed. -/
theorem aggregated_of_steady {redact : PyStr → PyStr} {taskId : PyStr}
    {as : List CvekitLogsAction} (h : Guarded (step redact) (Steady redact) { taskId } as) :
    Always (step redact)
      (fun s => (∀ run ∈ s.runs, run.cvekitRunId ∈ s.completed) → s.Aggregated redact)
      { taskId } as :=
  always_mono (fun _ => aggregated_of_drained)
    (always_of_guarded (fun _ _ _ => drained_step) (drained_first redact taskId) h)

/-- Two runs that are completed in the other order. -/
theorem aggregated_of_swapped : Always (step id)
    (fun s => (∀ run ∈ s.runs, run.cvekitRunId ∈ s.completed) → s.Aggregated id)
    { taskId := "t".toList }
    [.begins "A".toList [] [], .begins "B".toList [] [],
      .completes "B".toList true [] ["second".toList] (fun _ => []) none,
      .completes "A".toList true [] ["first".toList] (fun _ => ["second".toList]) none] :=
  aggregated_of_steady (by decide +kernel)

/-- The metadata of a run is lost after its section is appended, and the next run waits for good. -/
theorem section_without_mark :
    ¬ ∀ (redact : PyStr → PyStr) (taskId : PyStr) (as : List CvekitLogsAction), Always (step redact)
      (fun s => (∀ run ∈ s.runs, run.cvekitRunId ∈ s.completed) → s.Aggregated redact)
      { taskId } as := by
  intro h
  let actions : List CvekitLogsAction := [.begins "A".toList [] [], .begins "B".toList [] [],
    .completes "A".toList true [] ["first".toList] (fun _ => []) (some 100),
    .completes "B".toList true [] ["second".toList] (fun _ => []) none]
  obtain ⟨s, hs⟩ : ∃ s, run (step id) { taskId := [] } actions = some s :=
    Option.isSome_iff_exists.mp (by decide +kernel)
  have hlast := always_last (h id [] actions) hs
  cases hs
  have hmerged := (hlast (by decide +kernel)).merged
  revert hmerged
  decide +kernel

end CvekitLogs

end WittyService

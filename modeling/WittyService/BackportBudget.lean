import Mathlib.Data.Option.Basic
import WittyService.BackportEdits
import WittyService.BackportRunAll

/-! The order in which a pass of `_run_all` handles the rows, and its step budget: an iteration
ends the row it is at, or checks it so that the next iteration ends it. -/
namespace WittyService

open KeyedMerge GuardedRuns

def Progress.aboutRow (event : Progress) : Bool :=
  event.phase ∈ [.checking, .resolving, .applying, .skipped, .failed]

def Progress.endsRow (event : Progress) : Bool :=
  event.phase ∈ [.skipped, .failed] || (event.phase = .applying && event.phaseState = .completed)

/-- The rows handled to their end after an event, `none` when it speaks of another row than the
next one. -/
def advance (handled : Nat) (event : Progress) : Option Nat :=
  if event.aboutRow then
    if event.currentIndex = handled + 1 then
      some (if event.endsRow then handled + 1 else handled)
    else none
  else some handled

variable {handled : Nat} {event : Progress} {report report' : List Row}

theorem advance_of_aboutRow (habout : event.aboutRow) (hindex : event.currentIndex = handled + 1) :
    advance handled event = some (if event.endsRow then handled + 1 else handled) := by
  rw [advance, if_pos habout, if_pos hindex]

def rowsHandled (progress : List Progress) : Option Nat := progress.foldlM advance 0

theorem rowsHandled_append {progress : List Progress} (event : Progress)
    (h : rowsHandled progress = some handled) :
    rowsHandled (progress ++ [event]) = advance handled event := by
  rw [rowsHandled, List.foldlM_append, ← rowsHandled, h]
  simp

def Row.isSettled (row : Row) : Bool :=
  row.statusWord ≠ "pending".toList && (row.hasConflict.isTrue || row.hasConflict.isFalse)

/-- A successful check leaves the row with an id with a status other than pending and a boolean
conflict flag. -/
def Cvekit.Settles (id : PyStr) : Cvekit → Prop
  | .wrote rows _ _ (.ok ()) => ∃ row ∈ rows.head?, row.id = id ∧ row.isSettled
  | _ => True

instance (id : PyStr) : DecidablePred (Cvekit.Settles id)
  | .failed _ => isTrue trivial
  | .wrote _ _ _ (.error _) => isTrue trivial
  | .wrote rows _ _ (.ok ()) =>
    inferInstanceAs (Decidable (∃ row ∈ rows.head?, row.id = id ∧ row.isSettled))

theorem Row.wasUnchecked_of_isSettled {row : Row} (h : row.isSettled) :
    row.wasUnchecked = false := by
  simp only [isSettled, Value.isTrue, Value.isFalse, Bool.and_eq_true, Bool.or_eq_true,
    decide_eq_true_eq] at h
  simp only [wasUnchecked, Bool.or_eq_false_iff, decide_eq_false_iff_not]
  refine ⟨h.1, fun hnull => ?_⟩
  rw [hnull] at h
  cases h.2 with
  | inl h | inr h => cases h

theorem settled_of_runCheckRow {row given : Row} {i : ℕ}
    {tool : Cvekit} {result : Result} (hrow : report[i]? = some row) (ht : tool.Settles row.id)
    (h : runCheckRow report given tool = (report', .ok result)) (hok : result.failed = false) :
    ∃ row', report'[i]? = some row' ∧ row'.wasUnchecked = false := by
  unfold runCheckRow at h
  split at h
  next =>
    cases h
    cases hok
  next hcheck =>
    unfold checkRow at h
    split at h
    · cases h
    · cases tool with
      | failed failure => cases h
      | wrote rows status error archive =>
        cases archive with
        | error failure => cases h
        | ok _ =>
          cases h
          obtain ⟨written, hhead, hid, hsettled⟩ := ht
          have hlatest : latest Row.id [written] row.id = some written := by
            rw [← hid]
            exact latest_singleton written
          refine ⟨written, ?_, Row.wasUnchecked_of_isSettled hsettled⟩
          rw [Option.mem_def.mp hhead, Option.getD_some]
          exact getElem?_merge_latest hrow hlatest

namespace RunAll

/-- `t` stands at the row `s` stands at, with its log in order when that of `s` is. -/
structure Prepares (s t : RunAll) : Prop where
  ids : t.report.map Row.id = s.report.map Row.id
  stepCount : t.stepCount = s.stepCount
  maxSteps : t.maxSteps = s.maxSteps
  index : t.index = s.index
  ended : t.ended = s.ended
  log : rowsHandled s.progress = some s.index → rowsHandled t.progress = some t.index

/-- What an iteration at a row comes to: the pass stops, the row is handled, or it was not checked
and is checked now. -/
inductive Outcome (row : Row) (s t : RunAll) : Prop where
  | stopped (ending : Ending) (h : t.ended = some ending)
      (hending : ending = .crashed ∨ ending = .lockTimeout) (hindex : t.index = s.index)
  | handled (h : t.ended = s.ended) (hindex : t.index = s.index + 1)
  | checked (h : t.ended = s.ended) (hindex : t.index = s.index) (hrow : row.wasUnchecked)
      (hnow : ∃ row', t.report[s.index]? = some row' ∧ row'.wasUnchecked = false)

structure Turn (row : Row) (s t : RunAll) : Prop where
  ids : t.report.map Row.id = s.report.map Row.id
  stepCount : t.stepCount = s.stepCount
  maxSteps : t.maxSteps = s.maxSteps
  log : rowsHandled s.progress = some s.index → rowsHandled t.progress = some t.index
  outcome : Outcome row s t

variable {s t u : RunAll} {row given base : Row} {shown : List Row} {tool : Cvekit}
  {b : Behaviour}

theorem Prepares.trans (h : Prepares s t) (h' : Prepares t u) : Prepares s u where
  ids := h'.ids.trans h.ids
  stepCount := h'.stepCount.trans h.stepCount
  maxSteps := h'.maxSteps.trans h.maxSteps
  index := h'.index.trans h.index
  ended := h'.ended.trans h.ended
  log := fun hlog => h'.log (h.log hlog)

theorem Prepares.turn (h : Prepares s t) (h' : Turn row t u) : Turn row s u where
  ids := h'.ids.trans h.ids
  stepCount := h'.stepCount.trans h.stepCount
  maxSteps := h'.maxSteps.trans h.maxSteps
  log := fun hlog => h'.log (h.log hlog)
  outcome := by
    cases h'.outcome with
    | stopped ending hu hending hindex => exact .stopped ending hu hending (hindex.trans h.index)
    | handled hu hindex => exact .handled (hu.trans h.ended) (by rw [hindex, h.index])
    | checked hu hindex hrow hnow =>
      rw [h.index] at hnow
      exact .checked (hu.trans h.ended) (hindex.trans h.index) hrow hnow

variable {phase : Phase} {phaseState : PhaseState}

theorem prepares_emit (habout : phase ∈ [.checking, .resolving, .applying])
    (hends : phase = .applying → phaseState ≠ .completed) :
    Prepares s (s.emit phase phaseState base shown) := by
  refine ⟨rfl, rfl, rfl, rfl, rfl, fun hlog => ?_⟩
  change rowsHandled (s.progress ++ [_]) = some s.index
  rw [rowsHandled_append _ hlog]
  simp only [List.mem_cons, List.not_mem_nil, or_false] at habout
  obtain rfl | rfl | rfl := habout
  · exact advance_of_aboutRow rfl rfl
  · exact advance_of_aboutRow rfl rfl
  · have hne : phaseState ≠ .completed := hends rfl
    cases phaseState with
    | running | failed => exact advance_of_aboutRow rfl rfl
    | completed => exact absurd rfl hne

theorem prepares_store {report : List Row} (h : report.map Row.id = s.report.map Row.id) :
    Prepares s (s.store report) := ⟨h, rfl, rfl, rfl, rfl, fun hlog => hlog⟩

theorem turn_stop {ending : Ending} (h : ending = .crashed ∨ ending = .lockTimeout) :
    Turn row s (s.stop ending) :=
  ⟨rfl, rfl, rfl, fun hlog => hlog, .stopped ending rfl h rfl⟩

theorem turn_finishRow {failed : Bool}
    (hends : phase ∈ [.skipped, .failed] ∨ phase = .applying ∧ phaseState = .completed) :
    Turn row s (s.finishRow phase phaseState base shown failed) := by
  refine ⟨rfl, rfl, rfl, fun hlog => ?_, .handled rfl rfl⟩
  change rowsHandled (s.progress ++ [_]) = some (s.index + 1)
  rw [rowsHandled_append _ hlog]
  simp only [List.mem_cons, List.not_mem_nil, or_false] at hends
  obtain (rfl | rfl) | ⟨rfl, rfl⟩ := hends
  · exact advance_of_aboutRow rfl rfl
  · exact advance_of_aboutRow rfl rfl
  · exact advance_of_aboutRow rfl rfl

section

variable (hid : (s.report[s.index]?).map Row.id = some base.id)
include hid

theorem turn_checkStep (hbase : base.wasUnchecked) (ht : tool.Settles base.id) :
    Turn base s (s.checkStep base row given shown tool) := by
  have hids := ids_runCheckRow s.report given tool
  have hemit : Prepares s (s.emit .checking .running base shown) :=
    prepares_emit (by decide) nofun
  obtain ⟨current, hcurrent, hcurrentId⟩ := Option.map_eq_some_iff.mp hid
  unfold checkStep
  dsimp only [report_emit]
  split
  next heq =>
    rw [heq] at hids
    exact (hemit.trans (prepares_store hids)).turn (turn_stop (.inl rfl))
  next report' checked heq =>
    rw [heq] at hids
    have hstored := hemit.trans (prepares_store hids)
    split_ifs with htimeout hfailed
    · exact hstored.turn (turn_stop (.inr rfl))
    · exact hstored.turn (turn_finishRow (.inl (by decide)))
    · rw [Bool.not_eq_true] at hfailed
      rw [← hcurrentId] at ht
      have hcompleted : Prepares ((s.emit .checking .running base shown).store report')
          (((s.emit .checking .running base shown).store report').emit .checking .completed base
            checked.rows) := prepares_emit (by decide) nofun
      have hdone := hstored.trans hcompleted
      exact ⟨hdone.ids, hdone.stepCount, hdone.maxSteps, hdone.log,
        .checked hdone.ended hdone.index hbase (settled_of_runCheckRow hcurrent ht heq hfailed)⟩

theorem turn_applyStep (ht : b.fallback.Settles base.id)
    : Turn base s (s.applyStep base row b) := by
  have hids := ids_applyRow s.report row b.apply
  rw [← fst_returnFailure row, ← runApplyRow] at hids
  have hemit : Prepares s (s.emit .applying .running base [row]) :=
    prepares_emit (by decide) fun _ => nofun
  unfold applyStep
  dsimp only [report_emit]
  split
  next heq =>
    rw [heq] at hids
    exact (hemit.trans (prepares_store hids)).turn (turn_stop (.inl rfl))
  next report' applied heq =>
    rw [heq] at hids
    have hstored := hemit.trans (prepares_store hids)
    split_ifs with htimeout hunchecked
    · exact hstored.turn (turn_stop (.inr rfl))
    · rw [Bool.and_eq_true] at hunchecked
      refine hstored.turn (turn_checkStep ?_ hunchecked.2 ht)
      rw [← List.getElem?_map, hstored.ids, List.getElem?_map]
      exact hid
    · exact hstored.turn (turn_finishRow (.inl (by decide)))
    · exact hstored.turn (turn_finishRow (.inr ⟨rfl, rfl⟩))

theorem turn_applyResolved (ht : b.fallback.Settles base.id)
    : Turn base s (s.applyResolved base b) := by
  unfold applyResolved
  split
  · exact turn_stop (.inl rfl)
  · split_ifs
    · exact turn_finishRow (.inl (by decide))
    · exact turn_applyStep hid ht

end

theorem turn_resolveStep (hid : (s.report[s.index]?).map Row.id = some row.id)
    (ht : b.fallback.Settles row.id) : Turn row s (s.resolveStep row b) := by
  have hids := ids_tryResolve s.report row b.resolve
  rw [← fst_returnFailure row, ← runTryResolve] at hids
  have hemit : Prepares s (s.emit .resolving .running row [row]) :=
    prepares_emit (by decide) nofun
  unfold resolveStep
  dsimp only [report_emit]
  split
  next heq =>
    rw [heq] at hids
    exact (hemit.trans (prepares_store hids)).turn (turn_stop (.inl rfl))
  next report' resolved heq =>
    rw [heq] at hids
    have hstored := hemit.trans (prepares_store hids)
    split_ifs
    · exact hstored.turn (turn_stop (.inr rfl))
    · have hmerged := hstored.trans (prepares_store
        (ids_mergeReportRows report' (failedRows resolved row)))
      exact hmerged.turn (turn_finishRow (.inl (by decide)))
    · have hcompleted : Prepares ((s.emit .resolving .running row [row]).store report')
          (((s.emit .resolving .running row [row]).store report').emit .resolving .completed row
            (rowsOr resolved.rows row)) := prepares_emit (by decide) nofun
      have hdone := hstored.trans hcompleted
      refine hdone.turn (turn_applyResolved ?_ ht)
      rw [← List.getElem?_map, hdone.ids, List.getElem?_map]
      exact hid

theorem turn_processRow (hrow : s.report[s.index]? = some row)
    (hcheck : b.check.Settles row.id) (hfallback : b.fallback.Settles row.id) :
    Turn row s (s.processRow row b) := by
  have hid : (s.report[s.index]?).map Row.id = some row.id := by rw [hrow, Option.map_some]
  unfold processRow
  split_ifs with hterminal hneeds
  · exact turn_finishRow (.inl (by decide))
  · rw [Row.needsCheck, Bool.and_eq_true] at hneeds
    exact turn_checkStep hid hneeds.1 hcheck
  · exact turn_resolveStep hid hfallback
  · exact turn_applyStep hid hfallback

end RunAll

open RunAll

/-- Successful checks settle their rows, and no pass is given a `max_steps` of its own. -/
def ChecksSettle (s : RunAll) : RunAllAction → Prop
  | .iterate b => ∀ row ∈ s.current b, b.check.Settles row.id ∧ b.fallback.Settles row.id
  | .resume maxSteps _ => maxSteps.getD 0 = 0

instance (s : RunAll) : DecidablePred (ChecksSettle s)
  | .iterate b => inferInstanceAs (Decidable
      (∀ row ∈ s.current b, b.check.Settles row.id ∧ b.fallback.Settles row.id))
  | .resume maxSteps _ => inferInstanceAs (Decidable (maxSteps.getD 0 = 0))

/-- The iterations that are left for the row the pass is at: one when it is settled. -/
def WithinBudget (s : RunAll) : Prop :=
  s.stepCount ≤ 2 * s.index ∨
    s.stepCount = 2 * s.index + 1 ∧
      ∃ row, s.report[s.index]? = some row ∧ row.wasUnchecked = false

structure Budget (s : RunAll) : Prop where
  log : rowsHandled s.progress = some s.index
  index : s.index ≤ s.report.length
  maxSteps : 4 * s.report.length ≤ s.maxSteps
  stepCount : s.stepCount ≤ 2 * s.report.length
  going : s.ended = none → WithinBudget s
  ended : s.ended ≠ some .maxSteps
  completed : s.ended = some .completed → s.index = s.report.length

variable {s s' : RunAll} {b : Behaviour} {row : Row}

theorem length_of_ids
    (h : report'.map Row.id = report.map Row.id) : report'.length = report.length := by
  have hlen := congrArg List.length h
  rwa [List.length_map, List.length_map] at hlen

theorem budget_processRow (h : Budget s) (hs : s.ended = none)
    (hrow : s.report[s.index]? = some row) (hcheck : b.check.Settles row.id)
    (hfallback : b.fallback.Settles row.id) :
    Budget (({ s with stepCount := s.stepCount + 1 } : RunAll).processRow row b) := by
  have hturn := turn_processRow (s := { s with stepCount := s.stepCount + 1 }) hrow hcheck
    hfallback
  have hlt := (List.getElem?_eq_some_iff.mp hrow).1
  have hlen := length_of_ids hturn.ids
  have hgoing := h.going hs
  have hcount : s.stepCount ≤ 2 * s.index + 1 := by
    obtain hle | ⟨heq, -⟩ := hgoing
    · omega
    · omega
  have hbound : 4 * (({ s with stepCount := s.stepCount + 1 } : RunAll).processRow row
      b).report.length ≤ (({ s with stepCount := s.stepCount + 1 } : RunAll).processRow row
      b).maxSteps := by
    rw [hlen, hturn.maxSteps]
    exact h.maxSteps
  have hsteps := hturn.stepCount
  cases hturn.outcome with
  | stopped ending hended hending hindex =>
    refine ⟨hturn.log h.log, ?_, hbound, ?_, ?_, ?_, ?_⟩
    · rw [hindex, hlen]
      exact h.index
    · rw [hsteps, hlen]
      change s.stepCount + 1 ≤ 2 * s.report.length
      omega
    · rw [hended]
      exact nofun
    · rw [hended]
      obtain rfl | rfl := hending <;> exact nofun
    · rw [hended]
      obtain rfl | rfl := hending <;> exact nofun
  | handled hended hindex =>
    have hnone := hended.trans hs
    refine ⟨hturn.log h.log, ?_, hbound, ?_, ?_, ?_, ?_⟩
    · rw [hindex, hlen]
      exact hlt
    · rw [hsteps, hlen]
      change s.stepCount + 1 ≤ 2 * s.report.length
      omega
    · intro _
      left
      rw [hsteps, hindex]
      change s.stepCount + 1 ≤ 2 * (s.index + 1)
      omega
    · rw [hnone]
      exact nofun
    · rw [hnone]
      exact nofun
  | checked hended hindex hunchecked hnow =>
    have hnone := hended.trans hs
    -- the row was not settled before, so its first iteration was still to come
    have hfirst : s.stepCount ≤ 2 * s.index := by
      obtain hle | ⟨-, settled, hsettled, hchecked⟩ := hgoing
      · exact hle
      · rw [hrow] at hsettled
        cases hsettled
        rw [hunchecked] at hchecked
        cases hchecked
    refine ⟨hturn.log h.log, ?_, hbound, ?_, ?_, ?_, ?_⟩
    · rw [hindex, hlen]
      exact h.index
    · rw [hsteps, hlen]
      change s.stepCount + 1 ≤ 2 * s.report.length
      omega
    · intro _
      rw [WithinBudget, hsteps, hindex]
      change s.stepCount + 1 ≤ 2 * s.index ∨ s.stepCount + 1 = 2 * s.index + 1 ∧ _
      obtain heq | hne := Nat.eq_or_lt_of_le hfirst
      · exact .inr ⟨by omega, hnow⟩
      · exact .inl hne
    · rw [hnone]
      exact nofun
    · rw [hnone]
      exact nofun

theorem log_other (habout : event.aboutRow = false) (h : rowsHandled s.progress = some s.index) :
    rowsHandled (s.progress ++ [event]) = some s.index := by
  rw [rowsHandled_append event h, advance, habout, if_neg Bool.false_ne_true]

theorem budget_pause (h : Budget s) : Budget s.pause :=
  ⟨log_other rfl h.log, h.index, h.maxSteps, h.stepCount, nofun, nofun, nofun⟩

theorem budget_start (report : List Row) (run : ExecutionRun) {maxSteps : Option Nat}
    (hmax : maxSteps.getD 0 = 0) (pause : Bool) : Budget (start report run maxSteps pause) := by
  have hinit : Budget (start report run maxSteps false) := by
    refine ⟨rfl, Nat.zero_le _, ?_, Nat.zero_le _, fun _ => .inl (le_refl 0), nofun, nofun⟩
    change 4 * report.length ≤ maxStepsOf maxSteps report
    rw [maxStepsOf, if_pos hmax]
    omega
  cases pause with
  | false => exact hinit
  | true => exact budget_pause hinit

theorem budget_iterate (h : Budget s) (hs : s.ended = none)
    (hc : ChecksSettle s (.iterate b)) : Budget (s.iterate b) := by
  cases hrow : s.current b with
  | some row =>
    rw [iterate_of_current hrow]
    obtain ⟨hcheck, hfallback⟩ := hc row hrow
    exact budget_processRow h hs (current_eq_some hrow) hcheck hfallback
  | none =>
    have hgoing := h.going hs
    have hmaxSteps := h.maxSteps
    have hcount : s.stepCount ≤ 2 * s.index + 1 := by
      obtain hle | ⟨heq, -⟩ := hgoing
      · omega
      · omega
    obtain ⟨hlt, -, heq⟩ | ⟨hover, heq⟩ := iterate_of_none hrow
    · rw [heq]
      have hbound : s.stepCount + 1 ≤ 2 * s.report.length := by omega
      exact ⟨log_other rfl h.log, h.index, h.maxSteps, hbound, nofun, nofun, nofun⟩
    · have hend : s.index = s.report.length := by
        have hindex := h.index
        omega
      rw [heq, finish, if_neg (by omega)]
      exact ⟨log_other rfl h.log, h.index, h.maxSteps, h.stepCount, nofun, nofun, fun _ => hend⟩

theorem budget_step {a : RunAllAction} (h : Budget s) (hc : ChecksSettle s a)
    (hs : step s a = some s') : Budget s' := by
  cases a with
  | iterate b =>
    simp only [step] at hs
    split_ifs at hs with hended
    cases hs
    exact budget_iterate h hended hc
  | resume maxSteps pause =>
    simp only [step] at hs
    split_ifs at hs
    cases hs
    exact budget_start s.report s.run hc pause

def pendingRow : Row := { name := { commit := ['p'] }, status := "pending".toList }

def checkedRow : Row :=
  { pendingRow with status := "success".toList, hasConflict := .bool false }

end WittyService

import WittyService.BackportRows

/-! The actions on a single row of a report, and when what the tool did to the row it was given
comes to stand in the row's place and nowhere else. -/
namespace WittyService

open KeyedMerge

variable {α : Type*}

/-- An action on a row with what the tool does. `given` is the place, in the copy of the report
that `apply_row` makes, of the row the tool applies; `status` and `error` are what it answers. -/
inductive RowAction (α : Type*) where
  | checkRow (cvekit : ReportRow α → ReportRow α)
  | applyRow (given : ℕ) (cvekit : ReportRow α → ReportRow α) (status error : Field α)
  | tryResolve (cvekit : ReportRow α → ReportRow α)

/-- What a request is about: the report, the working report if that file exists, and the row as
the caller sent it. -/
structure RowRequest (α : Type*) where
  base : Report α
  working : Option (Report α) := none
  row : ReportRow α

namespace RowRequest

variable (request : RowRequest α) (reader : FieldReader α)

def rows : List (ReportRow α) := request.base.filterMap id

/-- `_resolve_commit_row`. -/
def resolvedRow : Option (ReportRow α) :=
  request.row.resolveCommitRow reader request.base request.working

/-- The report `apply_row` copies. -/
def applyReport : Report α := request.working.getD request.base

/-- The row `execute_selected` hands to the tool for `try_resolve`, `none` when one of the two
returns before that. -/
def rowToResolve : Option (ReportRow α) := do
  let firstConflict ← request.rows.find? fun item => item.isBlockingConflict reader
  let resolved ← request.resolvedRow reader
  if firstConflict.buildRowId reader ≠ resolved.buildRowId reader then none
  else
    let selected ← resolved.resolveCommitRow reader request.base request.working
    if selected.needsNothing reader then none else some selected

/-- The row `apply_row` asks the tool to apply, `none` when it returns or raises before that. -/
def rowToApply : Option (ReportRow α) := do
  let resolved ← request.resolvedRow reader
  if resolved.needsNothing reader then none
  else resolved.resolveApplyValue.map fun _ => resolved

end RowRequest

/-- The report that `check_row` stores, `none` when it raises before the tool runs. -/
def RowRequest.checkRow (reader : FieldReader α) (request : RowRequest α)
    (cvekit : ReportRow α → ReportRow α) : Option (Report α) :=
  (request.resolvedRow reader).map fun resolved =>
    ReportRow.mergeReportRows reader request.base [cvekit (resolved.rowForCheck reader)]

/-- The rows `apply_row` merges: the ones of the tool's report with the id of the row, or the row
itself, each with the failure the tool answered. -/
def RowRequest.appliedRows (reader : FieldReader α) (commits : Report α) (resolved : ReportRow α)
    (status error : Field α) : List (ReportRow α) :=
  let affected := (commits.filterMap id).filter fun item =>
    item.buildRowId reader = resolved.buildRowId reader
  (if affected = [] then [resolved] else affected).map
    (ReportRow.applyStatus reader status error)

/-- The report that `apply_row` stores, `none` when it ends before the tool runs. -/
def RowRequest.applyRow (reader : FieldReader α) (request : RowRequest α) (given : ℕ)
    (cvekit : ReportRow α → ReportRow α) (status error : Field α) : Option (Report α) :=
  (request.rowToApply reader).map fun resolved =>
    let commits := request.applyReport.modify given (Option.map cvekit)
    ReportRow.mergeReportRows reader request.base
      (RowRequest.appliedRows reader commits resolved status error)

/-- The report that `try_resolve` stores, `none` when it ends before the tool runs. When no row
bears the id of the updated one, the archive of the case raises after the first merge. -/
def RowRequest.tryResolve (reader : FieldReader α) (request : RowRequest α)
    (cvekit : ReportRow α → ReportRow α) : Option (Report α) :=
  (request.rowToResolve reader).map fun selected =>
    let updated := cvekit selected
    let merged := ReportRow.mergeReportRows reader request.base [updated]
    let commits := (merged.filterMap id).filter fun item =>
      item.buildRowId reader = updated.buildRowId reader
    if commits = [] then merged
    else ReportRow.mergeReportRows reader merged
      (commits.map (ReportRow.normalizeTryResolveRow reader))

namespace RowAction

variable (reader : FieldReader α) (request : RowRequest α)

def run : RowAction α → Option (Report α)
  | checkRow cvekit => request.checkRow reader cvekit
  | applyRow given cvekit status error =>
    request.applyRow reader given cvekit status error
  | tryResolve cvekit => request.tryResolve reader cvekit

def answered : RowAction α → Option (ReportRow α)
  | checkRow cvekit => (request.resolvedRow reader).map fun row => cvekit (row.rowForCheck reader)
  | applyRow given cvekit _ _ => (request.applyReport[given]?.join).map cvekit
  | tryResolve cvekit => (request.rowToResolve reader).map cvekit

def finish : RowAction α → ReportRow α → ReportRow α
  | checkRow _, row => row
  | applyRow _ _ status error, row => row.applyStatus reader status error
  | tryResolve _, row => row.normalizeTryResolveRow reader

end RowAction

/-- `report'` is `report` with `row` in the place `i`. -/
def Lands (report report' : Report α) (i : ℕ) (row : ReportRow α) : Prop :=
  Puts i (some row) report report'

/-- What the tool leaves fits the row at `i`. For a check it has kept the row's id, which no
other row shares. An application takes the last row with that id from the rows the tool leaves,
and none of them meets another row. For a resolution the id also outlives the normalisation, or
the row of another id is written first. -/
def Fits (reader : FieldReader α) (request : RowRequest α) (i : ℕ) (row answered : ReportRow α) :
    RowAction α → Prop
  | .checkRow _ => answered.buildRowId reader = row.buildRowId reader ∧
      OnlyAt (ReportRow.buildRowId reader) request.rows i (row.buildRowId reader) answered
  | .applyRow given cvekit status error => ∀ resolved ∈ request.rowToApply reader,
      let updates := RowRequest.appliedRows reader
        (request.applyReport.modify given (Option.map cvekit)) resolved status error
      (latest (ReportRow.buildRowId reader) updates (row.buildRowId reader)).getD row =
          answered.applyStatus reader status error ∧
        ∀ j other, j ≠ i → request.rows[j]? = some other →
          ∀ last ∈ latest (ReportRow.buildRowId reader) updates (other.buildRowId reader),
            other = last
  | .tryResolve _ =>
      let updated := answered.normalizeTryResolveRow reader
      ((∃ other ∈ request.rows, other.buildRowId reader = answered.buildRowId reader) ∧
        updated.buildRowId reader = row.buildRowId reader ∧
        OnlyAt (ReportRow.buildRowId reader) request.rows i (row.buildRowId reader) updated ∧
        (answered.buildRowId reader ≠ row.buildRowId reader →
          OnlyAt (ReportRow.buildRowId reader) request.rows i (answered.buildRowId reader)
            answered)) ∨
      (∀ other ∈ request.rows, other.buildRowId reader ≠ answered.buildRowId reader) ∧
        row = updated

variable {reader : FieldReader α} {request : RowRequest α} {report : Report α}
  {rows : List (ReportRow α)} {row : ReportRow α} {i : ℕ}

theorem map_some_filterMap (h : none ∉ report) : (report.filterMap id).map some = report := by
  induction report with
  | nil => rfl
  | cons item report ih =>
    cases item with
    | none => exact absurd List.mem_cons_self h
    | some row =>
      rw [List.filterMap_cons_some (f := id) rfl, List.map_cons,
        ih fun hmem => h (List.mem_cons_of_mem _ hmem)]

theorem filterMap_map_some (rows : List (ReportRow α)) :
    (rows.map some).filterMap id = rows := by
  rw [List.filterMap_map]
  exact List.filterMap_some

theorem lands_map_some_iff (hlen : rows.length = (report.filterMap id).length) :
    Lands report (rows.map some) i row ↔
      none ∉ report ∧ Puts i row (report.filterMap id) rows := by
  constructor
  · intro h
    have hlength := h.length_eq
    rw [List.length_map, hlen] at hlength
    have hnone : none ∉ report := fun hmem => by
      have hlt := (List.length_filterMap_lt_length_iff_exists (f := id)).mpr ⟨none, hmem, rfl⟩
      omega
    refine ⟨hnone, hlen, ?_, fun j hj => ?_⟩
    · have hat := h.row
      rw [List.getElem?_map, Option.map_eq_some_iff] at hat
      obtain ⟨row', hrow', heq⟩ := hat
      rw [hrow', Option.some.inj heq]
    · have hother := h.others j hj
      rw [← map_some_filterMap hnone, List.getElem?_map, List.getElem?_map] at hother
      exact Option.map_injective (Option.some_injective _) hother
  · rintro ⟨hnone, hputs⟩
    refine ⟨?_, ?_, fun j hj => ?_⟩
    · rw [List.length_map, hlen, ← List.length_map (f := some), map_some_filterMap hnone]
    · rw [List.getElem?_map, hputs.row, Option.map_some]
    · rw [List.getElem?_map, hputs.others j hj, ← List.getElem?_map, map_some_filterMap hnone]

theorem rows_getElem? (hnone : none ∉ request.base) (hrow : request.base[i]? = some (some row)) :
    request.rows[i]? = some row := by
  rw [← map_some_filterMap hnone, List.getElem?_map, Option.map_eq_some_iff] at hrow
  obtain ⟨row', hrow', heq⟩ := hrow
  rw [RowRequest.rows, hrow', Option.some.inj heq]

theorem lands_mergeReportRows_iff {updates : List (ReportRow α)} {update : ReportRow α} :
    Lands request.base (ReportRow.mergeReportRows reader request.base updates) i update ↔
      none ∉ request.base ∧
        Puts i update request.rows (merge (ReportRow.buildRowId reader) request.rows updates) :=
  lands_map_some_iff (length_merge _ _ _)

section

variable {updated : ReportRow α} {cvekit : ReportRow α → ReportRow α}
  (hu : (request.rowToResolve reader).map cvekit = some updated)
include hu

theorem tryResolve_eq_of_mem
    (hmem : ∃ other ∈ request.rows, other.buildRowId reader = updated.buildRowId reader) :
    request.tryResolve reader cvekit =
      some ((merge (ReportRow.buildRowId reader)
        (merge (ReportRow.buildRowId reader) request.rows [updated])
          [updated.normalizeTryResolveRow reader]).map some) := by
  obtain ⟨selected, hselected, hupdated⟩ := Option.map_eq_some_iff.mp hu
  obtain ⟨other, hother, hid⟩ := hmem
  have hmerged : ∀ item ∈ merge (ReportRow.buildRowId reader) request.rows [updated],
      item.buildRowId reader = updated.buildRowId reader → item = updated := by
    intro item hitem hitemid
    obtain ⟨old, -, hold⟩ := List.mem_map.mp hitem
    rw [latest_singleton_eq] at hold
    split at hold
    · exact hold.symm
    · next hne =>
      rw [Option.getD_none] at hold
      exact absurd (hold ▸ hitemid.symm) hne
  have hin : updated ∈ merge (ReportRow.buildRowId reader) request.rows [updated] := by
    refine List.mem_map.mpr ⟨other, hother, ?_⟩
    rw [latest_singleton_eq, if_pos hid.symm, Option.getD_some]
  rw [RowRequest.tryResolve, hselected, Option.map_some, hupdated]
  simp only [ReportRow.mergeReportRows, filterMap_map_some]
  have hfilter : updated ∈ (merge (ReportRow.buildRowId reader) request.rows [updated]).filter
      fun item => item.buildRowId reader = updated.buildRowId reader :=
    List.mem_filter.mpr ⟨hin, decide_eq_true rfl⟩
  rw [← RowRequest.rows, if_neg (List.ne_nil_of_mem hfilter)]
  congr 2
  refine merge_eq_singleton ?_ fun item hitem => ?_
  · exact mt List.map_eq_nil_iff.mp (List.ne_nil_of_mem hfilter)
  · obtain ⟨item', hitem', rfl⟩ := List.mem_map.mp hitem
    obtain ⟨hmem', hid'⟩ := List.mem_filter.mp hitem'
    rw [hmerged item' hmem' (of_decide_eq_true hid')]

theorem tryResolve_eq_of_not_mem
    (hmem : ∀ other ∈ request.rows, other.buildRowId reader ≠ updated.buildRowId reader) :
    request.tryResolve reader cvekit = some (request.rows.map some) := by
  obtain ⟨selected, hselected, hupdated⟩ := Option.map_eq_some_iff.mp hu
  have hmerge : merge (ReportRow.buildRowId reader) request.rows [updated] = request.rows := by
    refine (List.map_congr_left fun row hrow => ?_).trans (List.map_id _)
    rw [latest_singleton_eq, if_neg fun heq => hmem row hrow heq.symm]
    rfl
  rw [RowRequest.tryResolve, hselected, Option.map_some, hupdated]
  simp only [ReportRow.mergeReportRows, filterMap_map_some]
  rw [← RowRequest.rows, hmerge]
  refine congrArg some (if_pos ?_)
  refine List.filter_eq_nil_iff.mpr fun other hother => ?_
  rw [decide_eq_true_eq]
  exact hmem other hother

end

/-- The action at a row puts its result in the row's place exactly when the report holds nothing
but rows and what the tool left fits the row. -/
theorem lands_iff (reader : FieldReader α) (request : RowRequest α) (action : RowAction α)
    (i : ℕ) (row answered : ReportRow α) (report' : Report α)
    (hrow : request.base[i]? = some (some row))
    (hanswered : action.answered reader request = some answered)
    (hrun : action.run reader request = some report') :
    Lands request.base report' i (action.finish reader answered) ↔
      none ∉ request.base ∧ Fits reader request i row answered action := by
  cases action with
  | checkRow cvekit =>
    obtain ⟨resolved, hresolved, hcvekit⟩ := Option.map_eq_some_iff.mp hanswered
    rw [RowAction.run, RowRequest.checkRow, hresolved, Option.map_some, hcvekit,
      Option.some.injEq] at hrun
    rw [← hrun, RowAction.finish, lands_mergeReportRows_iff]
    refine and_congr_right fun hnone => ?_
    rw [puts_merge_singleton_iff (rows_getElem? hnone hrow)]
    exact and_congr_right fun hkey => by rw [hkey]
  | applyRow given cvekit status error =>
    obtain ⟨resolved, hresolved, heq⟩ := Option.map_eq_some_iff.mp hrun
    rw [← heq, RowAction.finish, lands_mergeReportRows_iff]
    refine and_congr_right fun hnone => ?_
    rw [puts_merge_iff (rows_getElem? hnone hrow), Fits]
    constructor
    · intro h resolved' hresolved'
      rw [Option.mem_def, hresolved, Option.some.injEq] at hresolved'
      exact hresolved' ▸ h
    · intro h
      exact h resolved hresolved
  | tryResolve cvekit =>
    rw [RowAction.run] at hrun
    rw [RowAction.finish, Fits]
    by_cases hmem : ∃ other ∈ request.rows, other.buildRowId reader = answered.buildRowId reader
    · rw [tryResolve_eq_of_mem hanswered hmem, Option.some.injEq] at hrun
      rw [← hrun, lands_map_some_iff (by rw [length_merge, length_merge, RowRequest.rows])]
      refine and_congr_right fun hnone => ?_
      rw [← RowRequest.rows, puts_merge_merge_iff (rows_getElem? hnone hrow)]
      obtain ⟨other, hother, hid⟩ := hmem
      constructor
      · intro h
        exact .inl ⟨⟨other, hother, hid⟩, h⟩
      · rintro (⟨-, h⟩ | ⟨hne, -⟩)
        · exact h
        · exact absurd hid (hne other hother)
    · have hne : ∀ other ∈ request.rows,
          other.buildRowId reader ≠ answered.buildRowId reader := fun other hother hid =>
        hmem ⟨other, hother, hid⟩
      rw [tryResolve_eq_of_not_mem hanswered hne, Option.some.injEq] at hrun
      rw [← hrun, lands_map_some_iff (by rw [RowRequest.rows]), ← RowRequest.rows]
      refine and_congr_right fun hnone => ?_
      have hat := rows_getElem? hnone hrow
      constructor
      · intro h
        exact .inr ⟨hne, Option.some.inj (hat.symm.trans h.row)⟩
      · rintro (⟨hin, -⟩ | ⟨-, heq⟩)
        · exact absurd hin hmem
        · exact ⟨rfl, hat.trans (congrArg some heq), fun _ _ => rfl⟩

namespace RowAction

def plainReader : FieldReader Empty := ⟨fun _ => [], fun _ => false, fun _ => []⟩

def commitRow : ReportRow Empty := ⟨[("commit", .text "830b3c68".toList)], by decide⟩

def tagRow : ReportRow Empty := ⟨[("input_commit", .text "v6.1".toList)], by decide⟩

def tagRequest : RowRequest Empty := { base := [some tagRow, some commitRow], row := tagRow }

def checkedRow : ReportRow Empty :=
  (commitRow.setdefault "row_number" (.int 2)).rowForCheck plainReader

theorem lands_checkedRow :
    Lands tagRequest.base [some tagRow, some checkedRow] 1 checkedRow := by
  refine (lands_iff plainReader { tagRequest with row := commitRow } (.checkRow fun row => row) 1
    commitRow checkedRow _ rfl rfl rfl).mpr ⟨?_, by decide +kernel, ?_⟩
  · simp [tagRequest]
  · intro j other hj hother hid
    match j with
    | 0 =>
      obtain rfl := Option.some.inj hother
      have hne : tagRow.buildRowId plainReader ≠ commitRow.buildRowId plainReader := by
        decide +kernel
      exact absurd hid hne
    | 1 => exact absurd rfl hj
    | n + 2 => cases hother

/-- The tool finds the commit a tag stands for, and the row it checked is not updated. -/
theorem filled_commit_not_lands :
    ∃ answered report',
      tagRequest.base[0]? = some (some tagRequest.row) ∧
      (RowAction.checkRow fun row => row.set "commit" (.text "c0ffee00".toList)).answered
        plainReader tagRequest = some answered ∧
      (RowAction.checkRow fun row => row.set "commit" (.text "c0ffee00".toList)).run
        plainReader tagRequest = some report' ∧
      report' = tagRequest.base ∧ ¬Lands tagRequest.base report' 0 answered := by
  refine ⟨_, _, rfl, rfl, rfl, rfl, fun h => ?_⟩
  have hcommit := congrArg (Option.map fun row => (row.map fun r => r.get "commit").getD .null)
    h.row
  revert hcommit
  decide +kernel

end RowAction

end WittyService

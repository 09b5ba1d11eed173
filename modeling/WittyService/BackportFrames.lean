import WittyService.BackportEdits
import WittyService.BackportRunAll

/-! Which rows an iteration of `_run_all` changes. The client resolves the first conflict of the
report, which need not be the row the loop is at. -/
namespace WittyService

open KeyedMerge GuardedRuns

variable {report report' : List Row} {row given base : Row} {rows : List Row} {i : ℕ}
  {tool : Cvekit} {result : Result}

theorem exists_merged (hrow : report[i]? = some row) (hne : rows ≠ [])
    (h : ∀ update ∈ rows, update.name = row.name) :
    ∃ update, latest Row.id rows row.id = some update ∧
      (mergeReportRows report rows)[i]? = some update := by
  obtain ⟨first, hfirst⟩ := List.exists_mem_of_ne_nil rows hne
  obtain ⟨last, hlast⟩ : ∃ last, latest Row.id rows first.id = some last := exists_latest hfirst
  rw [id_of_name (h first hfirst)] at hlast
  exact ⟨last, hlast, getElem?_merge_latest hrow hlast⟩

theorem findBlockingConflict_eq (hrow : report[i]? = some row) (hb : row.isBlockingConflict)
    (hbefore : ∀ other ∈ report.take i, other.isBlockingConflict = false) :
    findBlockingConflict report = some row := by
  obtain ⟨hlt, hget⟩ := List.getElem?_eq_some_iff.mp hrow
  have hsplit : report = report.take i ++ row :: report.drop (i + 1) := by
    rw [← hget, ← List.drop_eq_getElem_cons hlt, List.take_append_drop]
  rw [findBlockingConflict, hsplit, List.find?_append, List.find?_cons_of_pos hb]
  rw [List.find?_eq_none.mpr fun other hother => by rw [hbefore other hother]; exact nofun]
  rfl

variable {item : Row}

theorem names_runTryResolve (hn : DistinctIds report) (hrow : report[i]? = some row)
    (hfirst : findBlockingConflict report = some row) (ht : tool.Names row.name)
    (h : runTryResolve report row tool = (report', .ok result))
    (hitem : item ∈ result.rows) : item.name = row.name := by
  obtain ⟨resolvedRow, hresolved⟩ := exists_resolveCommitRow hrow rfl
  have hname := name_resolveCommitRow hn hrow rfl hresolved
  have hid : ¬ row.id ≠ resolvedRow.id := fun hne => hne (id_of_name hname).symm
  simp only [runTryResolve, tryResolve, hfirst, hresolved, if_neg hid] at h
  have hexec := edits_executeSelected resolvedRow hn hrow ht
  cases hcall : executeSelected report resolvedRow tool with
  | mk next outcome =>
    rw [hcall] at h hexec
    cases outcome with
    | error failure =>
      cases failure with
      | crashed => cases h
      | raised error =>
        cases h
        rw [List.mem_singleton.mp hitem]
        rfl
    | ok executed =>
      obtain ⟨commits, summary⟩ := executed
      cases h
      obtain ⟨row', hrow', hname'⟩ := hexec.row_at hrow
      have hrows : ∀ update ∈ commits.map normalizeTryResolveRow, update.name = row'.name := by
        intro update hupdate
        obtain ⟨written, hwritten, rfl⟩ := List.mem_map.mp hupdate
        rw [name_normalizeTryResolveRow, hname',
          eq_of_mem_executeSelected hn hrow hname ht hcall hwritten]
      have hmerge := edits_mergeReportRows (hn.edits hexec) hrow' hrows
      obtain ⟨row'', hrow'', hname''⟩ := hmerge.row_at hrow'
      rw [name_of_mem_affectedRows (hn.edits hexec |>.edits hmerge) hrow''
        (fun update hupdate => (hrows update hupdate).trans hname''.symm) hitem, hname'', hname']

theorem runTryResolve_other (hrow : report[i]? = some row) {first : Row} (hn : DistinctIds report)
    (hfirst : findBlockingConflict report = some first) (hne : first.id ≠ row.id) :
    ∃ summary, runTryResolve report row tool =
      (report, .ok { failed := true, rows := [first], summary }) := by
  obtain ⟨resolvedRow, hresolved⟩ := exists_resolveCommitRow hrow rfl
  have hname := name_resolveCommitRow hn hrow rfl hresolved
  have hid : first.id ≠ resolvedRow.id := fun heq => hne (heq.trans (id_of_name hname))
  refine ⟨"只能处理当前第一条阻塞冲突。".toList, ?_⟩
  simp only [runTryResolve, tryResolve, hfirst, hresolved, if_pos hid]
  rfl

theorem rowsOr_ne_nil (rows : List Row) (row : Row) : rowsOr rows row ≠ [] := by
  rw [rowsOr]
  split_ifs with h
  · exact List.cons_ne_nil row []
  · exact h

theorem mem_rowsOr (h : item ∈ rowsOr rows row) : item ∈ rows ∨ item = row := by
  rw [rowsOr] at h
  split_ifs at h
  · exact .inr (List.mem_singleton.mp h)
  · exact .inl h

variable (resolved : Result)

theorem isFailed_unresolvedRow (row item : Row) :
    (unresolvedRow resolved row item).isFailed := Row.isFailed_of_status rfl

theorem names_failedRows (h : ∀ item ∈ result.rows, item.name = row.name) :
    ∀ update ∈ failedRows result row, update.name = row.name := by
  intro update hupdate
  obtain ⟨item, hitem, rfl⟩ := List.mem_map.mp hupdate
  change item.name = row.name
  cases mem_rowsOr hitem with
  | inl hmem => exact h item hmem
  | inr heq => exact congrArg Row.name heq

theorem failedRows_ne_nil (row : Row) : failedRows resolved row ≠ [] := by
  rw [failedRows, Ne, List.map_eq_nil_iff]
  exact rowsOr_ne_nil resolved.rows row

theorem exists_failed_merged (hrow : report[i]? = some row) {resolved : Result}
    (h : ∀ update ∈ failedRows resolved base, update.name = row.name) :
    ∃ row', (mergeReportRows report (failedRows resolved base))[i]? = some row' ∧
      row'.isFailed := by
  obtain ⟨update, hlast, hget⟩ := exists_merged hrow (failedRows_ne_nil resolved base) h
  obtain ⟨item, -, rfl⟩ := List.mem_map.mp (mem_of_latest hlast).1
  exact ⟨_, hget, isFailed_unresolvedRow resolved base item⟩

/-- The calls of an iteration at a row write that row alone, under its own name. -/
def Behaviour.Names (b : Behaviour) (name : RowName) : Prop :=
  b.check.Names name ∧ b.resolve.Names name ∧ b.apply.KeepsName name ∧ b.fallback.Names name

def Row.conflictIsNext (row : Row) : Bool :=
  !row.isTerminalNonblockingRow && !row.needsCheck && row.hasConflict.isTrue

namespace RunAll

variable {s : RunAll} {b : Behaviour} {shown : List Row}

theorem edits_checkStep {current : Row} (hn : DistinctIds s.report)
    (hrow : s.report[i]? = some current) (hname : given.name = current.name)
    (ht : tool.Names current.name) :
    Edits Row.name i s.report (s.checkStep base row given shown tool).report := by
  have hcheck := edits_runCheckRow hn hrow hname ht
  unfold checkStep
  dsimp only [report_emit]
  split
  next heq =>
    rw [heq] at hcheck
    exact hcheck
  next heq =>
    rw [heq] at hcheck
    split_ifs <;> exact hcheck

theorem names_runApplyRow (hn : DistinctIds report) (hrow : report[i]? = some base)
    (hname : given.name = base.name) (ht : tool.KeepsName base.name)
    (h : runApplyRow report given tool = (report', .ok result)) {item : Row}
    (hitem : item ∈ result.rows) : item.name = base.name := by
  obtain ⟨resolvedRow, hresolved⟩ := exists_resolveCommitRow hrow hname
  have hresolvedName := name_resolveCommitRow hn hrow hname hresolved
  simp only [runApplyRow, applyRow, hresolved] at h
  split_ifs at h
  · cases h
    rw [List.mem_singleton.mp hitem]
    exact hresolvedName
  · cases h
    rw [List.mem_singleton.mp hitem]
    exact hname
  · cases tool with
    | failed failure =>
      cases failure with
      | crashed => cases h
      | raised error =>
        cases h
        rw [List.mem_singleton.mp hitem]
        exact hname
    | wrote rows status error archive =>
      have happlied : ∀ update ∈ appliedRows resolvedRow rows status error,
          update.name = base.name := fun update hupdate =>
        name_of_mem_appliedRows hresolvedName ht hupdate
      have hmerge := edits_mergeReportRows hn hrow happlied
      cases archive with
      | ok _ =>
        cases h
        obtain ⟨row', hrow', hname'⟩ := hmerge.row_at hrow
        rw [name_of_mem_affectedRows (hn.edits hmerge) hrow'
          (fun update hupdate => (happlied update hupdate).trans hname'.symm) hitem]
        exact hname'
      | error failure =>
        cases failure with
        | crashed => cases h
        | raised error =>
          cases h
          rw [List.mem_singleton.mp hitem]
          exact hname

theorem edits_applyStep (hn : DistinctIds s.report) (hrow : s.report[i]? = some row)
    (happly : b.apply.KeepsName row.name) (hfallback : b.fallback.Names row.name) :
    Edits Row.name i s.report (s.applyStep base row b).report := by
  have happlied := edits_applyRow hn hrow rfl happly
  rw [← fst_returnFailure row, ← runApplyRow] at happlied
  unfold applyStep
  dsimp only [report_emit]
  split
  next heq =>
    rw [heq] at happlied
    exact happlied
  next report' applied heq =>
    rw [heq] at happlied
    obtain ⟨row', hrow', hname'⟩ := happlied.row_at hrow
    have hgiven : (applied.rows.head?.getD row).name = row'.name := by
      rw [hname']
      cases hhead : applied.rows.head? with
      | none => rfl
      | some item => exact names_runApplyRow hn hrow rfl happly heq (List.mem_of_head? hhead)
    split_ifs
    · exact happlied
    · refine happlied.trans ?_
      rw [← hname'] at hfallback
      exact edits_checkStep (s := (s.emit .applying .running base [row]).store report')
        (hn.edits happlied) hrow' hgiven hfallback
    · exact happlied
    · exact happlied

theorem edits_resolveStep (hn : DistinctIds s.report) (hrow : s.report[s.index]? = some row)
    (hfirst : findBlockingConflict s.report = some row) (hb : b.Names row.name) :
    Edits Row.name s.index s.report (s.resolveStep row b).report := by
  obtain ⟨-, hresolve, happly, hfallback⟩ := hb
  have hresolved := edits_tryResolve hn hrow rfl hresolve
  rw [← fst_returnFailure row, ← runTryResolve] at hresolved
  unfold resolveStep
  dsimp only [report_emit]
  split
  next heq =>
    rw [heq] at hresolved
    exact hresolved
  next report' resolved heq =>
    have hnames : ∀ item ∈ resolved.rows, item.name = row.name := fun item hitem =>
      names_runTryResolve hn hrow hfirst hresolve heq hitem
    rw [heq] at hresolved
    obtain ⟨row', hrow', hname'⟩ := hresolved.row_at hrow
    split_ifs
    · exact hresolved
    · refine hresolved.trans (edits_mergeReportRows (hn.edits hresolved) hrow' ?_)
      exact fun update hupdate => (names_failedRows hnames update hupdate).trans hname'.symm
    · unfold applyResolved
      simp only [report_emit, report_store, index_emit, index_store, hrow']
      split_ifs
      · exact hresolved
      · refine hresolved.trans ?_
        rw [← hname'] at happly hfallback
        exact edits_applyStep
          (s := ((s.emit .resolving .running row [row]).store report').emit .resolving .completed
            row (rowsOr resolved.rows row))
          (hn.edits hresolved) hrow' happly hfallback

theorem edits_processRow (hn : DistinctIds s.report) (hrow : s.report[s.index]? = some row)
    (hb : b.Names row.name)
    (hfirst : row.conflictIsNext → findBlockingConflict s.report = some row) :
    Edits Row.name s.index s.report (s.processRow row b).report := by
  unfold processRow
  split_ifs with hterminal hcheck hconflict
  · exact Edits.refl s.report
  · exact edits_checkStep hn hrow rfl hb.1
  · refine edits_resolveStep hn hrow (hfirst ?_) hb
    simp [Row.conflictIsNext, hterminal, hcheck, hconflict]
  · exact edits_applyStep hn hrow hb.2.2.1 hb.2.2.2

end RunAll

end WittyService

import WittyService.BackportCvekit

/-! A call of `cvekit` for one row of a report with distinct row ids changes no other row, as long
as the rows the tool writes for it keep its name. -/
namespace WittyService

open KeyedMerge

variable {report report' : List Row} {row given resolvedRow : Row} {rows : List Row} {i : ℕ}
  {tool : Cvekit}

def DistinctIds (report : List Row) : Prop := (report.map Row.id).Nodup

instance : DecidablePred DistinctIds := fun report =>
  inferInstanceAs (Decidable (report.map _).Nodup)

theorem DistinctIds.edits (hn : DistinctIds report) (h : Edits Row.name i report report') :
    DistinctIds report' := (h.comp RowName.id).nodup hn

theorem DistinctIds.eq_of_id (hn : DistinctIds report) (hrow : report[i]? = some row)
    (hgiven : given ∈ report) (hid : given.id = row.id) : given = row :=
  List.inj_on_of_nodup_map hn hgiven (List.mem_of_getElem? hrow) hid

theorem id_of_name (h : given.name = row.name) : given.id = row.id := congrArg RowName.id h

/-! Whatever the tool writes, the rows keep their places and their ids. -/

@[simp] theorem ids_mergeReportRows (report rows : List Row) :
    (mergeReportRows report rows).map Row.id = report.map Row.id := map_key_merge Row.id report rows

section

variable (report : List Row) (given : Row) (tool : Cvekit)

@[simp] theorem ids_checkRow :
    (checkRow report given tool).1.map Row.id = report.map Row.id := by
  unfold checkRow
  split
  · rfl
  · cases tool with
    | failed failure => rfl
    | wrote rows status error archive => exact ids_mergeReportRows report _

@[simp] theorem ids_runCheckRow :
    (runCheckRow report given tool).1.map Row.id = report.map Row.id := by
  have hcheck := ids_checkRow report given tool
  unfold runCheckRow
  split
  next heq =>
    rw [heq] at hcheck
    exact (ids_mergeReportRows _ _).trans hcheck
  next => exact hcheck

@[simp] theorem ids_executeSelected :
    (executeSelected report given tool).1.map Row.id = report.map Row.id := by
  unfold executeSelected
  split
  · rfl
  · split_ifs
    · rfl
    · cases tool with
      | failed failure => rfl
      | wrote rows status error archive =>
        dsimp only
        split_ifs
        · exact ids_mergeReportRows report rows
        · exact ids_mergeReportRows report rows

@[simp] theorem ids_tryResolve :
    (tryResolve report given tool).1.map Row.id = report.map Row.id := by
  unfold tryResolve
  split
  · rfl
  · split
    · rfl
    next resolvedRow _ =>
      have hexec := ids_executeSelected report resolvedRow tool
      split_ifs
      · rfl
      · split
        next heq =>
          rw [heq] at hexec
          exact hexec
        next heq =>
          rw [heq] at hexec
          exact (ids_mergeReportRows _ _).trans hexec

@[simp] theorem ids_applyRow :
    (applyRow report given tool).1.map Row.id = report.map Row.id := by
  unfold applyRow
  split
  · rfl
  · split_ifs
    · rfl
    · rfl
    · cases tool with
      | failed failure => rfl
      | wrote rows status error archive => exact ids_mergeReportRows report _

end

@[simp] theorem fst_returnFailure (row : Row) (ended : List Row × Except Failure Result) :
    (returnFailure row ended).1 = ended.1 := by
  obtain ⟨report, result⟩ := ended
  cases result with
  | ok result => rfl
  | error failure =>
    cases failure with
    | raised error | crashed => rfl

/-! With distinct ids, what the tool writes under the name of the row it was given changes that
row alone. -/

section

variable (hn : DistinctIds report) (hrow : report[i]? = some row)
include hn hrow

theorem edits_mergeReportRows (h : ∀ update ∈ rows, update.name = row.name) :
    Edits Row.name i report (mergeReportRows report rows) := by
  have hids := edits_merge hn hrow fun update hupdate => id_of_name (h update hupdate)
  refine Edits.of_row hids.others hrow (getElem?_merge hrow) ?_
  cases hlatest : latest Row.id rows row.id with
  | none => rfl
  | some update => exact h update (mem_of_latest hlatest).1

theorem name_of_mem_affectedRows (h : ∀ update ∈ rows, update.name = row.name) {item : Row}
    (hitem : item ∈ affectedRows report rows) : item = row := by
  obtain ⟨hmem, hid⟩ := List.mem_filter.mp hitem
  obtain ⟨update, hupdate, heq⟩ := List.mem_map.mp (of_decide_eq_true hid)
  exact hn.eq_of_id hrow hmem (heq.symm.trans (id_of_name (h update hupdate)))

theorem name_resolveCommitRow (hname : given.name = row.name)
    (h : resolveCommitRow report given = some resolvedRow) :
    resolvedRow.name = row.name := by
  rw [resolveCommitRow, Option.map_eq_some_iff] at h
  obtain ⟨item, hfind, rfl⟩ := h
  have hmem : item.1 ∈ report := (List.mem_zipIdx' (List.mem_of_find?_eq_some hfind)).2 ▸
    List.getElem_mem _
  have hid : item.1.id = given.id := of_decide_eq_true
    (List.find?_some (p := fun item : Row × ℕ => decide (item.1.id = given.id)) hfind)
  have hitem : item.1 = row := hn.eq_of_id hrow hmem (hid.trans (id_of_name hname))
  change ({ given.name with rowId := item.1.name.rowId } : RowName) = row.name
  rw [hitem, hname]

end

theorem exists_resolveCommitRow (hrow : report[i]? = some row) (hname : given.name = row.name) :
    ∃ resolvedRow, resolveCommitRow report given = some resolvedRow := by
  have hmem : (row, i) ∈ report.zipIdx := by
    rw [List.mem_zipIdx_iff_getElem?]
    exact hrow
  have hsome : (report.zipIdx.find? fun item => item.1.id = given.id).isSome := by
    refine List.find?_isSome.mpr ⟨(row, i), hmem, decide_eq_true ?_⟩
    exact (id_of_name hname).symm
  obtain ⟨item, hitem⟩ := Option.isSome_iff_exists.mp hsome
  exact ⟨_, by rw [resolveCommitRow, hitem, Option.map_some]⟩

@[simp] theorem name_rowForCheck (row : Row) : (rowForCheck row).name = row.name := by
  unfold rowForCheck
  dsimp only
  split_ifs <;> rfl

@[simp] theorem name_normalizeTryResolveRow (row : Row) :
    (normalizeTryResolveRow row).name = row.name := by
  unfold normalizeTryResolveRow
  split_ifs <;> rfl

@[simp] theorem name_applyStatus (status error : PyStr) (row : Row) :
    (applyStatus status error row).name = row.name := rfl

/-- The tool writes the row it was given under its own name. -/
def Cvekit.KeepsName (tool : Cvekit) (name : RowName) : Prop :=
  ∀ written ∈ tool.rows, written.id = name.id → written.name = name

def Cvekit.Names (tool : Cvekit) (name : RowName) : Prop :=
  ∀ written ∈ tool.rows, written.name = name

section

variable (hn : DistinctIds report) (hrow : report[i]? = some row) (hname : given.name = row.name)
include hn hrow hname

theorem edits_checkRow (ht : tool.Names row.name) :
    Edits Row.name i report (checkRow report given tool).1 := by
  obtain ⟨resolvedRow, hresolved⟩ := exists_resolveCommitRow hrow hname
  have hresolvedName := name_resolveCommitRow hn hrow hname hresolved
  simp only [checkRow, hresolved]
  cases tool with
  | failed failure => exact Edits.refl report
  | wrote rows status error archive =>
    refine edits_mergeReportRows hn hrow fun update hupdate => ?_
    rw [List.mem_singleton.mp hupdate]
    cases hhead : rows.head? with
    | none => exact (name_rowForCheck resolvedRow).trans hresolvedName
    | some written => exact ht written (List.mem_of_head? hhead)

theorem edits_storeCheckFailure (error : CallError) :
    Edits Row.name i report (storeCheckFailure report given error).1 := by
  refine edits_mergeReportRows hn hrow fun update hupdate => ?_
  rw [List.mem_singleton.mp hupdate]
  exact hname

theorem edits_runCheckRow (ht : tool.Names row.name) :
    Edits Row.name i report (runCheckRow report given tool).1 := by
  have hcheck := edits_checkRow hn hrow hname ht
  rw [runCheckRow]
  split
  next report' error heq =>
    rw [heq] at hcheck
    obtain ⟨row', hrow', hname'⟩ := hcheck.row_at hrow
    have hstore := edits_storeCheckFailure (hn.edits hcheck) hrow' (hname.trans hname'.symm) error
    exact hcheck.trans hstore
  next => exact hcheck

end

theorem edits_executeSelected (given : Row) (hn : DistinctIds report)
    (hrow : report[i]? = some row) (ht : tool.Names row.name) :
    Edits Row.name i report (executeSelected report given tool).1 := by
  unfold executeSelected
  split
  · exact Edits.refl report
  · split_ifs
    · exact Edits.refl report
    · cases tool with
      | failed failure => exact Edits.refl report
      | wrote rows status error archive =>
        have hmerge := edits_mergeReportRows hn hrow ht
        dsimp only
        split_ifs
        · exact hmerge
        · exact hmerge

section

variable (hn : DistinctIds report) (hrow : report[i]? = some row) (hname : given.name = row.name)
  (ht : tool.Names row.name)
include hn hrow hname ht

theorem eq_of_mem_executeSelected {commits : List Row}
    {summary : PyStr} (h : executeSelected report given tool = (report', .ok (commits, summary)))
    {item : Row} (hitem : item ∈ commits) : item.name = row.name := by
  obtain ⟨resolvedRow, hresolved⟩ := exists_resolveCommitRow hrow hname
  simp only [executeSelected, hresolved] at h
  split_ifs at h
  · cases h
    rw [List.mem_singleton.mp hitem]
    exact name_resolveCommitRow hn hrow hname hresolved
  · cases tool with
    | failed failure => cases h
    | wrote rows status error archive =>
      dsimp only at h
      split_ifs at h
      · cases h
      · cases archive with
        | error failure => cases h
        | ok _ =>
          cases h
          have hmerge := edits_mergeReportRows hn hrow ht
          obtain ⟨row', hrow', hname'⟩ := hmerge.row_at hrow
          have hrows : ∀ update ∈ rows, update.name = row'.name := fun update hupdate =>
            (ht update hupdate).trans hname'.symm
          rw [name_of_mem_affectedRows (hn.edits hmerge) hrow' hrows hitem]
          exact hname'

theorem edits_tryResolve :
    Edits Row.name i report (tryResolve report given tool).1 := by
  obtain ⟨resolvedRow, hresolved⟩ := exists_resolveCommitRow hrow hname
  have hresolvedName := name_resolveCommitRow hn hrow hname hresolved
  simp only [tryResolve, hresolved]
  split
  · exact Edits.refl report
  · split_ifs
    · exact Edits.refl report
    · have hexec := edits_executeSelected resolvedRow hn hrow ht
      split
      next heq =>
        rw [heq] at hexec
        exact hexec
      next report' commits summary heq =>
        have hcommits : ∀ item ∈ commits, item.name = row.name := fun item hitem =>
          eq_of_mem_executeSelected hn hrow hresolvedName ht heq hitem
        rw [heq] at hexec
        obtain ⟨row', hrow', hname'⟩ := hexec.row_at hrow
        refine hexec.trans (edits_mergeReportRows (hn.edits hexec) hrow' fun update hupdate => ?_)
        obtain ⟨item, hitem, rfl⟩ := List.mem_map.mp hupdate
        rw [name_normalizeTryResolveRow, hcommits item hitem, hname']

end

variable {name : RowName} {item : Row}

theorem name_of_mem_ownRows (hresolved : resolvedRow.name = name)
    (ht : ∀ written ∈ rows, written.id = name.id → written.name = name)
    (hitem : item ∈ ownRows resolvedRow rows) : item.name = name := by
  simp only [ownRows] at hitem
  split_ifs at hitem
  · rw [List.mem_singleton.mp hitem]
    exact hresolved
  · obtain ⟨hmem, hid⟩ := List.mem_filter.mp hitem
    exact ht item hmem ((of_decide_eq_true hid).trans (congrArg RowName.id hresolved))

theorem name_of_mem_appliedRows {status error : PyStr} (hresolved : resolvedRow.name = name)
    (ht : ∀ written ∈ rows, written.id = name.id → written.name = name)
    (hitem : item ∈ appliedRows resolvedRow rows status error) : item.name = name := by
  simp only [appliedRows] at hitem
  split_ifs at hitem
  · obtain ⟨written, hwritten, rfl⟩ := List.mem_map.mp hitem
    rw [name_applyStatus]
    exact name_of_mem_ownRows hresolved ht hwritten
  · exact name_of_mem_ownRows hresolved ht hitem

theorem edits_applyRow (hn : DistinctIds report) (hrow : report[i]? = some row)
    (hname : given.name = row.name) (ht : tool.KeepsName row.name) :
    Edits Row.name i report (applyRow report given tool).1 := by
  obtain ⟨resolvedRow, hresolved⟩ := exists_resolveCommitRow hrow hname
  have hresolvedName := name_resolveCommitRow hn hrow hname hresolved
  simp only [applyRow, hresolved]
  split_ifs
  · exact Edits.refl report
  · exact Edits.refl report
  · cases tool with
    | failed failure => exact Edits.refl report
    | wrote rows status error archive =>
      exact edits_mergeReportRows hn hrow fun update hupdate =>
        name_of_mem_appliedRows hresolvedName ht hupdate

end WittyService

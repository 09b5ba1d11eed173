import WittyService.BackportFrames

/-! What the calls of an iteration leave in the place of the row they were made for, and when they
let the pass go on. -/
namespace WittyService

open KeyedMerge

variable {report report' : List Row} {row given resolvedRow : Row} {rows : List Row} {i : ℕ}
  {tool : Cvekit} {result : Result}

/-! An exception or a lock timeout stops the pass only when the tool or the archive ends in one. -/

def Failure.stops : Failure → Bool
  | .crashed => true
  | .raised error => error.lockTimeout

def Cvekit.stops : Cvekit → Bool
  | .failed failure => failure.stops
  | .wrote _ _ _ (.error failure) => failure.stops
  | .wrote _ _ _ (.ok ()) => false

/-- What a call ends in does not stop the pass. -/
def GoesOn (ended : List Row × Except Failure Result) : Prop :=
  match ended.2 with
  | .ok result => result.lockTimeout = false
  | .error failure => failure.stops = false

theorem goesOn_checkRow (h : tool.stops = false) : GoesOn (checkRow report given tool) := by
  unfold checkRow
  split
  · rfl
  · cases tool with
    | failed failure => exact h
    | wrote rows status error archive =>
      cases archive with
      | error failure => exact h
      | ok _ => rfl

theorem goesOn_runCheckRow (h : tool.stops = false) :
    ∃ report' result, runCheckRow report given tool = (report', .ok result) ∧
      result.lockTimeout = false := by
  have hcheck : GoesOn (checkRow report given tool) := goesOn_checkRow h
  unfold runCheckRow
  cases hcall : checkRow report given tool with
  | mk report' outcome =>
    rw [hcall] at hcheck
    cases outcome with
    | ok result => exact ⟨report', result, rfl, hcheck⟩
    | error failure =>
      cases failure with
      | crashed => cases hcheck
      | raised error => exact ⟨_, _, rfl, hcheck⟩

theorem goesOn_returnFailure {ended : List Row × Except Failure Result} (h : GoesOn ended) :
    ∃ report' result, returnFailure row ended = (report', .ok result) ∧
      result.lockTimeout = false := by
  obtain ⟨report', outcome⟩ := ended
  cases outcome with
  | ok result => exact ⟨report', result, rfl, h⟩
  | error failure =>
    cases failure with
    | crashed => cases h
    | raised error => exact ⟨_, _, rfl, h⟩

section

variable (h : tool.stops = false)
include h

theorem stops_executeSelected {failure : Failure}
    (heq : executeSelected report given tool = (report', .error failure)) :
    failure.stops = false := by
  unfold executeSelected at heq
  split at heq
  · cases heq
    rfl
  · split_ifs at heq
    · cases heq
    · cases tool with
      | failed failure =>
        cases heq
        exact h
      | wrote rows status error archive =>
        dsimp only at heq
        split_ifs at heq
        · cases heq
          rfl
        · cases archive with
          | ok _ => cases heq
          | error failure =>
            cases heq
            exact h

theorem goesOn_tryResolve : GoesOn (tryResolve report given tool) := by
  unfold tryResolve
  split
  · rfl
  · split
    · rfl
    · split_ifs
      · rfl
      · split
        next heq => exact stops_executeSelected h heq
        next => rfl

theorem goesOn_runTryResolve :
    ∃ report' result, runTryResolve report row tool = (report', .ok result) ∧
      result.lockTimeout = false := goesOn_returnFailure (goesOn_tryResolve h)

theorem goesOn_applyRow : GoesOn (applyRow report given tool) := by
  unfold applyRow
  split
  · rfl
  · split_ifs
    · rfl
    · rfl
    · cases tool with
      | failed failure => exact h
      | wrote rows status error archive =>
        cases archive with
        | error failure => exact h
        | ok _ => rfl

theorem goesOn_runApplyRow :
    ∃ report' result, runApplyRow report row tool = (report', .ok result) ∧
      result.lockTimeout = false := goesOn_returnFailure (goesOn_applyRow h)

end

/-! The row a call leaves in its place, and the rows it reports. -/

def OnlyRow (rows : List Row) (row : Row) : Prop := rows ≠ [] ∧ ∀ item ∈ rows, item = row

theorem OnlyRow.head (h : OnlyRow rows row) : rows.head? = some row := by
  cases rows with
  | nil => exact absurd rfl h.1
  | cons first rest => rw [List.head?_cons, h.2 first List.mem_cons_self]

theorem OnlyRow.map (h : OnlyRow rows row) (f : Row → Row) : OnlyRow (rows.map f) (f row) := by
  refine ⟨fun hnil => h.1 (List.map_eq_nil_iff.mp hnil), fun item hitem => ?_⟩
  obtain ⟨other, hother, rfl⟩ := List.mem_map.mp hitem
  rw [h.2 other hother]

theorem onlyRow_affectedRows (hn : DistinctIds report) (hrow : report[i]? = some row)
    (hne : rows ≠ []) (h : ∀ update ∈ rows, update.id = row.id) :
    OnlyRow (affectedRows report rows) row := by
  constructor
  · obtain ⟨first, hfirst⟩ := List.exists_mem_of_ne_nil rows hne
    refine List.ne_nil_of_mem (a := row) (List.mem_filter.mpr ⟨List.mem_of_getElem? hrow, ?_⟩)
    exact decide_eq_true (List.mem_map.mpr ⟨first, hfirst, h first hfirst⟩)
  · intro item hitem
    obtain ⟨hmem, hid⟩ := List.mem_filter.mp hitem
    obtain ⟨update, hupdate, heq⟩ := List.mem_map.mp (of_decide_eq_true hid)
    exact hn.eq_of_id hrow hmem (heq.symm.trans (h update hupdate))

theorem distinctIds_of_ids (hn : DistinctIds report)
    (h : report'.map Row.id = report.map Row.id) : DistinctIds report' := by
  rw [DistinctIds, h]
  exact hn

theorem exists_row_of_ids (hrow : report[i]? = some row)
    (h : report'.map Row.id = report.map Row.id) :
    ∃ row', report'[i]? = some row' ∧ row'.id = row.id := by
  have hid : (report'.map Row.id)[i]? = (report.map Row.id)[i]? := by rw [h]
  rw [List.getElem?_map, List.getElem?_map, hrow, Option.map_some,
    Option.map_eq_some_iff] at hid
  exact hid

theorem merge_own (update : Row) (hn : DistinctIds report) (hrow : report[i]? = some row)
    (hid : update.id = row.id) :
    (mergeReportRows report [update])[i]? = some update ∧
      OnlyRow (affectedRows (mergeReportRows report [update]) [update]) update := by
  have hlatest : latest Row.id [update] row.id = some update := by
    rw [← hid]
    exact latest_singleton update
  have hget : (mergeReportRows report [update])[i]? = some update :=
    getElem?_merge_latest hrow hlatest
  refine ⟨hget, onlyRow_affectedRows (distinctIds_of_ids hn (ids_mergeReportRows _ _)) hget
    (List.cons_ne_nil update []) fun item hitem => ?_⟩
  rw [List.mem_singleton.mp hitem]

section

variable (hn : DistinctIds report) (hrow : report[i]? = some row)
include hn hrow

theorem merge_onlyRow {update : Row} (h : OnlyRow rows update) (hid : update.id = row.id) :
    (mergeReportRows report rows)[i]? = some update ∧
      OnlyRow (affectedRows (mergeReportRows report rows) rows) update := by
  obtain ⟨last, hlast⟩ : ∃ last, latest Row.id rows update.id = some last :=
    exists_latest (List.mem_of_head? h.head)
  rw [hid] at hlast
  have hget : (mergeReportRows report rows)[i]? = some update := by
    rw [← h.2 last (mem_of_latest hlast).1]
    exact getElem?_merge_latest hrow hlast
  refine ⟨hget, onlyRow_affectedRows (distinctIds_of_ids hn (ids_mergeReportRows _ _)) hget h.1
    fun item hitem => ?_⟩
  rw [h.2 item hitem]

theorem runCheckRow_failed (hid : given.id = row.id)
    (h : runCheckRow report given tool = (report', .ok result))
    (hfailed : result.failed) :
    ∃ error, report'[i]? = some (checkFailureRow given error) ∧
      OnlyRow result.rows (checkFailureRow given error) := by
  have hids := ids_checkRow report given tool
  unfold runCheckRow at h
  split at h
  next report₁ error heq =>
    rw [heq] at hids
    obtain ⟨row₁, hrow₁, hid₁⟩ := exists_row_of_ids hrow hids
    have hmerge := merge_own (checkFailureRow given error) (distinctIds_of_ids hn hids) hrow₁
      (hid.trans hid₁.symm)
    cases h
    exact ⟨error, hmerge⟩
  next hcheck =>
    unfold checkRow at h
    split at h
    · cases h
    · cases tool with
      | failed failure => cases h
      | wrote rows status error archive =>
        cases archive with
        | error failure => cases h
        | ok _ =>
          cases h
          cases hfailed

end

theorem needsNothing_resolveCommitRow (hopen : given.isTerminalNonblockingRow = false)
    (h : resolveCommitRow report given = some resolvedRow) : resolvedRow.needsNothing = false := by
  rw [resolveCommitRow, Option.map_eq_some_iff] at h
  obtain ⟨item, -, rfl⟩ := h
  exact Row.needsNothing_of_not_isTerminal hopen

def Cvekit.resolveAnswer (id : PyStr) : Cvekit → Option Row
  | .wrote rows _ _ (.ok ()) => (latest Row.id rows id).map normalizeTryResolveRow
  | _ => none

theorem runTryResolve_ok (hn : DistinctIds report) (hrow : report[i]? = some row)
    (hopen : row.isTerminalNonblockingRow = false)
    (hfirst : findBlockingConflict report = some row) (ht : tool.Names row.name)
    (h : runTryResolve report row tool = (report', .ok result)) (hok : result.failed = false) :
    ∃ answer, tool.resolveAnswer row.id = some answer ∧ report'[i]? = some answer ∧
      OnlyRow result.rows answer := by
  obtain ⟨resolvedRow, hresolved⟩ := exists_resolveCommitRow hrow rfl
  have hname := name_resolveCommitRow hn hrow rfl hresolved
  have hid : ¬ row.id ≠ resolvedRow.id := fun hne => hne (id_of_name hname).symm
  simp only [runTryResolve, tryResolve, hfirst, hresolved, if_neg hid] at h
  obtain ⟨again, hagain⟩ : ∃ again, resolveCommitRow report resolvedRow = some again :=
    exists_resolveCommitRow hrow hname
  have hneeds : again.needsNothing = false := by
    refine needsNothing_resolveCommitRow ?_ hagain
    rw [resolveCommitRow, Option.map_eq_some_iff] at hresolved
    obtain ⟨item, -, rfl⟩ := hresolved
    exact hopen
  simp only [executeSelected, hagain, hneeds, Bool.false_eq_true, if_false] at h
  cases tool with
  | failed failure =>
    cases failure with
    | crashed => cases h
    | raised error =>
      cases h
      cases hok
  | wrote rows status error archive =>
    have hids := ids_mergeReportRows report rows
    have hn' := distinctIds_of_ids hn hids
    dsimp only at h
    split_ifs at h with hempty
    · cases h
      cases hok
    · cases archive with
      | error failure =>
        cases failure with
        | crashed => cases h
        | raised error =>
          cases h
          cases hok
      | ok _ =>
        cases h
        have hne : rows ≠ [] := by
          rintro rfl
          exact hempty (List.filter_eq_nil_iff.mpr fun item _ => by
            rw [List.map_nil, decide_eq_true_eq]
            exact List.not_mem_nil)
        obtain ⟨written, hlast, hget⟩ := exists_merged hrow hne ht
        have hwritten := (mem_of_latest hlast).1
        have hcommits : OnlyRow (affectedRows (mergeReportRows report rows) rows) written :=
          onlyRow_affectedRows hn' hget hne fun update hupdate =>
            id_of_name ((ht update hupdate).trans (ht written hwritten).symm)
        have hnormal := hcommits.map normalizeTryResolveRow
        have hnormalId : (normalizeTryResolveRow written).id = written.id :=
          id_of_name (name_normalizeTryResolveRow written)
        have hanswer : (Cvekit.wrote rows status error (.ok ())).resolveAnswer row.id =
            some (normalizeTryResolveRow written) := by
          rw [Cvekit.resolveAnswer, hlast, Option.map_some]
        exact ⟨_, hanswer, merge_onlyRow hn' hget hnormal hnormalId⟩

def storedRow (row : Row) (rows : List Row) (status error : PyStr) : Row :=
  let written := (latest Row.id rows row.id).getD row
  let word := PyStr.lower (PyStr.strip status)
  if word ≠ [] ∧ word ≠ "success".toList then applyStatus status error written else written

section

variable (row : Row) (rows : List Row)

variable (status error : PyStr)

theorem id_storedRow : (storedRow row rows status error).id = row.id := by
  have hwritten : ((latest Row.id rows row.id).getD row).id = row.id := key_getD_latest row
  unfold storedRow
  dsimp only
  split_ifs
  · exact hwritten
  · exact hwritten

theorem latest_ownRows :
    latest Row.id (ownRows row rows) row.id = some ((latest Row.id rows row.id).getD row) := by
  have hfilter := latest_filter Row.id rows row.id
  unfold ownRows
  dsimp only
  split_ifs with hempty
  · rw [hempty, latest_nil] at hfilter
    rw [← hfilter, latest_singleton, Option.getD_none]
  · rw [hfilter]
    obtain ⟨own, hown⟩ := List.exists_mem_of_ne_nil _ hempty
    obtain ⟨hmem, hid⟩ := List.mem_filter.mp hown
    obtain ⟨last, hlast⟩ : ∃ last, latest Row.id rows own.id = some last := exists_latest hmem
    rw [of_decide_eq_true hid] at hlast
    rw [hlast, Option.getD_some]

theorem latest_appliedRows :
    latest Row.id (appliedRows row rows status error) row.id =
      some (storedRow row rows status error) := by
  unfold appliedRows storedRow
  dsimp only
  split_ifs
  · rw [latest_map (fun update => id_of_name (name_applyStatus status error update)),
      latest_ownRows, Option.map_some]
  · exact latest_ownRows row rows

end

theorem id_of_mem_appliedRows {status error : PyStr} {item : Row}
    (h : item ∈ appliedRows row rows status error) : item.id = row.id := by
  have hown : ∀ written ∈ ownRows row rows, written.id = row.id := by
    intro written hwritten
    simp only [ownRows] at hwritten
    split_ifs at hwritten
    · rw [List.mem_singleton.mp hwritten]
    · exact of_decide_eq_true (List.mem_filter.mp hwritten).2
  simp only [appliedRows] at h
  split_ifs at h
  · obtain ⟨written, hwritten, rfl⟩ := List.mem_map.mp h
    exact hown written hwritten
  · exact hown item h

/-- The row `_resolve_commit_row` makes of a row of the report. -/
def Row.numbered (row : Row) (i : ℕ) : Row :=
  { row with rowNumber := row.rowNumber.or (some (i + 1)) }

theorem resolveCommitRow_self (hn : DistinctIds report) (hrow : report[i]? = some row) :
    resolveCommitRow report row = some (row.numbered i) := by
  obtain ⟨resolvedRow, hresolved⟩ := exists_resolveCommitRow hrow rfl
  rw [hresolved]
  rw [resolveCommitRow, Option.map_eq_some_iff] at hresolved
  obtain ⟨⟨item, j⟩, hfind, rfl⟩ := hresolved
  have hj : report[j]? = some item :=
    List.mem_zipIdx_iff_getElem?.mp (List.mem_of_find?_eq_some hfind)
  have hid : item.id = row.id := of_decide_eq_true
    (List.find?_some (p := fun item : Row × ℕ => decide (item.1.id = row.id)) hfind)
  have hitem : item = row := hn.eq_of_id hrow (List.mem_of_getElem? hj) hid
  rw [hitem] at hj
  have hplace : j = i := (List.getElem?_inj (List.getElem?_eq_some_iff.mp hj).1
    (List.Nodup.of_map Row.id hn)).mp (hj.trans hrow.symm)
  rw [hitem, hplace]
  simp [overlayCommit, Row.numbered]

/-- How an application that returns ends: the tool was not asked or raised, and the row is as it
was, or the tool wrote a row that is stored. -/
inductive ApplyOutcome (row : Row) (i : ℕ) (tool : Cvekit) (report report' : List Row)
    (result : Result) : Prop where
  | refused (hreport : report' = report) (hfailed : result.failed) (message : PyStr)
      (hrows : result.rows = [row.markFailed message])
      (hwhy : resolveApplyValue row = none ∨ ∃ failure, tool = .failed failure)
  | stored (rows : List Row) (status error : PyStr)
      (htool : tool = .wrote rows status error (.ok ())) (hvalue : resolveApplyValue row ≠ none)
      (hget : report'[i]? = some (storedRow (row.numbered i) rows status error))
      (hfailed : result.failed = decide (PyStr.lower (PyStr.strip status) = "failed".toList))
      (hrows : OnlyRow result.rows (storedRow (row.numbered i) rows status error))
  | unarchived (rows : List Row) (status error : PyStr) (failure : Failure)
      (htool : tool = .wrote rows status error (.error failure))
      (hvalue : resolveApplyValue row ≠ none)
      (hget : report'[i]? = some (storedRow (row.numbered i) rows status error))
      (hfailed : result.failed) (message : PyStr)
      (hrows : result.rows = [row.markFailed message])

theorem runApplyRow_outcome (hn : DistinctIds report) (hrow : report[i]? = some row)
    (hopen : row.isTerminalNonblockingRow = false)
    (h : runApplyRow report row tool = (report', .ok result)) :
    ApplyOutcome row i tool report report' result := by
  have hresolved := resolveCommitRow_self hn hrow
  have hneeds := needsNothing_resolveCommitRow hopen hresolved
  simp only [runApplyRow, applyRow, hresolved, hneeds, Bool.false_eq_true, if_false] at h
  split_ifs at h with hvalue
  · cases h
    exact .refused rfl rfl _ rfl (.inl hvalue)
  · cases tool with
    | failed failure =>
      cases failure with
      | crashed => cases h
      | raised error =>
        cases h
        exact .refused rfl rfl _ rfl (.inr ⟨_, rfl⟩)
    | wrote rows status error archive =>
      have hid := id_storedRow (row.numbered i) rows status error
      have hget : (mergeReportRows report (appliedRows (row.numbered i) rows status error))[i]? =
          some (storedRow (row.numbered i) rows status error) :=
        getElem?_merge_latest hrow (latest_appliedRows (row.numbered i) rows status error)
      cases archive with
      | ok _ =>
        cases h
        refine .stored rows status error rfl hvalue hget rfl ?_
        have hmem := (mem_of_latest (latest_appliedRows (row.numbered i) rows status error)).1
        refine onlyRow_affectedRows (distinctIds_of_ids hn (ids_mergeReportRows _ _)) hget
          (List.ne_nil_of_mem hmem) fun update hupdate => ?_
        rw [hid]
        exact id_of_mem_appliedRows hupdate
      | error failure =>
        cases failure with
        | crashed => cases h
        | raised error =>
          cases h
          exact .unarchived rows status _ _ rfl hvalue hget rfl _ rfl

end WittyService

import WittyService.BackportAnswers
import WittyService.BackportOwnRow

/-! The failures a pass of `_run_all` has counted are the failed rows of the report, as long as an
application leaves its row finished, and failed exactly when it says so. -/
namespace WittyService

open KeyedMerge GuardedRuns RunAll

/-- The rows before the loop are finished, and the failed ones among them are counted. -/
structure Accounted (s : RunAll) : Prop where
  index : s.index ≤ s.report.length
  processed : s.processedCount = s.index
  failed : (s.report.take s.index).countP Row.isFailed = s.failedCount
  terminal : ∀ row ∈ s.report.take s.index, row.isTerminalNonblockingRow

variable {s s' t : RunAll} {report' : List Row} {row given base : Row} {shown : List Row}
  {tool : Cvekit} {b : Behaviour} {result : Result}

def Cvekit.reportsFailure : Cvekit → Bool
  | .wrote _ status _ (.ok ()) => PyStr.lower (PyStr.strip status) = "failed".toList
  | _ => true

def AppliesWell (row : Row) : Cvekit → Prop
  | .failed _ => False
  | .wrote rows status error archive =>
    (storedRow row rows status error).isTerminalNonblockingRow ∧
      (storedRow row rows status error).isFailed =
        (Cvekit.wrote rows status error archive).reportsFailure

/-- The last call for a row does not stop the pass and accounts for it: a direct application that
fails is followed by a check. -/
def EndsWell (base row : Row) (b : Behaviour) : Prop :=
  b.apply.stops = false ∧
    if base.wasUnchecked ∧ (resolveApplyValue row = none ∨ b.apply.reportsFailure) then
      b.fallback.stops = false
    else resolveApplyValue row ≠ none ∧ AppliesWell row b.apply

/-- No call for a row that is not finished stops the pass, and the last one accounts for it. -/
def RowEndsWell (row : Row) (b : Behaviour) : Prop :=
  if row.needsCheck then b.check.stops = false
  else if row.hasConflict.isTrue then
    b.resolve.stops = false ∧
      ∀ answer ∈ b.resolve.resolveAnswer row.id, answer.isTerminalNonblockingRow = false →
        answer.isBlockingConflict = false → EndsWell row answer b
  else EndsWell row row b

/-- The condition on an iteration: the pass has steps left for the row it is at, a conflict is
resolved before any other one, and the row ends well. -/
def AccountsFor (s : RunAll) : RunAllAction → Prop
  | .iterate b =>
    (s.index < s.report.length → s.stepCount < s.maxSteps) ∧ FirstConflict s (.iterate b) ∧
      ∀ row ∈ s.current b, row.isTerminalNonblockingRow = false → RowEndsWell row b
  | .resume _ _ => True

instance (row : Row) : DecidablePred (AppliesWell row)
  | .failed _ => isFalse id
  | .wrote rows status error archive => inferInstanceAs (Decidable
      ((storedRow row rows status error).isTerminalNonblockingRow ∧
        (storedRow row rows status error).isFailed =
          (Cvekit.wrote rows status error archive).reportsFailure))

instance (base row : Row) (b : Behaviour) : Decidable (EndsWell base row b) :=
  inferInstanceAs (Decidable (b.apply.stops = false ∧
    if base.wasUnchecked ∧ (resolveApplyValue row = none ∨ b.apply.reportsFailure) then
      b.fallback.stops = false
    else resolveApplyValue row ≠ none ∧ AppliesWell row b.apply))

instance (row : Row) (b : Behaviour) : Decidable (RowEndsWell row b) :=
  inferInstanceAs (Decidable (if row.needsCheck then b.check.stops = false
    else if row.hasConflict.isTrue then
      b.resolve.stops = false ∧
        ∀ answer ∈ b.resolve.resolveAnswer row.id, answer.isTerminalNonblockingRow = false →
          answer.isBlockingConflict = false → EndsWell row answer b
    else EndsWell row row b))

instance (s : RunAll) : DecidablePred (AccountsFor s)
  | .iterate b => inferInstanceAs (Decidable
      ((s.index < s.report.length → s.stepCount < s.maxSteps) ∧ FirstConflict s (.iterate b) ∧
        ∀ row ∈ s.current b, row.isTerminalNonblockingRow = false → RowEndsWell row b))
  | .resume _ _ => isTrue trivial

theorem storedRow_numbered (row : Row) (i : ℕ) (rows : List Row) (status error : PyStr) :
    (storedRow (row.numbered i) rows status error).isTerminalNonblockingRow =
        (storedRow row rows status error).isTerminalNonblockingRow ∧
      (storedRow (row.numbered i) rows status error).isFailed =
        (storedRow row rows status error).isFailed := by
  have hid : (row.numbered i).id = row.id := rfl
  unfold storedRow
  rw [hid]
  cases latest Row.id rows row.id with
  | none =>
    dsimp only [Option.getD_none]
    split_ifs <;> exact ⟨rfl, rfl⟩
  | some written => exact ⟨rfl, rfl⟩

section

variable (hwell : EndsWell base row b) {i : ℕ} {report : List Row}
  (h : ApplyOutcome row i b.apply report report' result)
include hwell h

theorem finished_of_endsWell (hlast : ¬ (result.failed && base.wasUnchecked)) :
    ∃ row', report'[i]? = some row' ∧ row'.isTerminalNonblockingRow ∧
      row'.isFailed = result.failed := by
  obtain ⟨-, hwell⟩ := hwell
  rw [Bool.and_eq_true, not_and] at hlast
  have happlies (hno : base.wasUnchecked → resolveApplyValue row ≠ none ∧
      b.apply.reportsFailure = false) : resolveApplyValue row ≠ none ∧ AppliesWell row b.apply := by
    rw [if_neg fun hyes => ?_] at hwell
    · exact hwell
    · obtain ⟨hvalue, hreports⟩ := hno hyes.1
      obtain hnone | hfails := hyes.2
      · exact hvalue hnone
      · rw [hreports] at hfails
        cases hfails
  cases h with
  | refused hreport hfailed message hrows hwhy =>
    obtain ⟨hvalue, happly⟩ := happlies fun hunchecked => absurd hunchecked (hlast hfailed)
    obtain hnone | ⟨failure, htool⟩ := hwhy
    · exact absurd hnone hvalue
    · rw [htool] at happly
      exact absurd happly id
  | stored rows status error htool hvalue hget hfailed hrows =>
    rw [htool] at happlies
    obtain ⟨-, happly⟩ := happlies fun hunchecked => ⟨hvalue, by
      rw [Cvekit.reportsFailure, ← hfailed]
      exact Bool.eq_false_iff.mpr fun htrue => hlast htrue hunchecked⟩
    obtain ⟨hterminal, hsame⟩ := storedRow_numbered row i rows status error
    refine ⟨_, hget, hterminal.trans happly.1, ?_⟩
    rw [hsame, happly.2, hfailed]
    rfl
  | unarchived rows status error failure htool hvalue hget hfailed message hrows =>
    rw [htool] at happlies
    obtain ⟨-, happly⟩ := happlies fun hunchecked => absurd hunchecked (hlast hfailed)
    obtain ⟨hterminal, hsame⟩ := storedRow_numbered row i rows status error
    refine ⟨_, hget, hterminal.trans happly.1, ?_⟩
    rw [hsame, happly.2, hfailed]
    rfl

theorem fallback_of_endsWell (hfailed : result.failed)
    (hunchecked : base.wasUnchecked) : b.fallback.stops = false := by
  have hreports : resolveApplyValue row = none ∨ b.apply.reportsFailure := by
    cases h with
    | refused hreport _ message hrows hwhy =>
      obtain hnone | ⟨failure, htool⟩ := hwhy
      · exact .inl hnone
      · exact .inr (by rw [htool]; rfl)
    | stored rows status error htool hvalue hget hstatus hrows =>
      rw [hstatus] at hfailed
      exact .inr (by rw [htool]; exact hfailed)
    | unarchived rows status error failure htool hvalue hget _ message hrows =>
      exact .inr (by rw [htool]; rfl)
  have hlast := hwell.2
  rw [if_pos ⟨hunchecked, hreports⟩] at hlast
  exact hlast

end

theorem accounted_store (h : Accounted s) (he : Edits Row.name s.index s.report report') :
    Accounted (s.store report') where
  index := he.length_eq ▸ h.index
  processed := h.processed
  failed := by
    change (report'.take s.index).countP Row.isFailed = s.failedCount
    rw [he.take_eq]
    exact h.failed
  terminal := by
    change ∀ row ∈ report'.take s.index, row.isTerminalNonblockingRow
    rw [he.take_eq]
    exact h.terminal

theorem accounted_emit (h : Accounted s) (phase : Phase) (phaseState : PhaseState) :
    Accounted (s.emit phase phaseState base shown) :=
  ⟨h.index, h.processed, h.failed, h.terminal⟩

theorem accounted_finishRow (h : Accounted s) (hrow : s.report[s.index]? = some row)
    (hterminal : row.isTerminalNonblockingRow) {failed : Bool} (hfailed : row.isFailed = failed)
    (phase : Phase) (phaseState : PhaseState) :
    Accounted (s.finishRow phase phaseState base shown failed) := by
  have htake : s.report.take (s.index + 1) = s.report.take s.index ++ [row] := by
    rw [List.take_add_one, hrow, Option.toList_some]
  refine ⟨(List.getElem?_eq_some_iff.mp hrow).1, congrArg (· + 1) h.processed, ?_, ?_⟩
  · change (s.report.take (s.index + 1)).countP Row.isFailed =
      if failed then s.failedCount + 1 else s.failedCount
    rw [htake, List.countP_append, h.failed, List.countP_singleton, hfailed]
    split_ifs <;> rfl
  · intro other hother
    change other ∈ s.report.take (s.index + 1) at hother
    rw [htake, List.mem_append, List.mem_singleton] at hother
    obtain hbefore | rfl := hother
    · exact h.terminal other hbefore
    · exact hterminal

/-- The rows before the loop stay accounted for, and the pass goes on. -/
structure Continues (s t : RunAll) : Prop where
  accounted : Accounted t
  ended : t.ended = s.ended

section

variable (hn : DistinctIds s.report) (h : Accounted s) (hrow : s.report[s.index]? = some row)
include hn h hrow

theorem continues_checkStep (hname : given.name = row.name)
    (ht : tool.Names row.name) (hstops : tool.stops = false) {current : Row} :
    Continues s (s.checkStep base current given shown tool) := by
  have hedits := edits_runCheckRow hn hrow hname ht
  obtain ⟨report', checked, hcall, htimeout⟩ :
      ∃ report' checked, runCheckRow s.report given tool = (report', .ok checked) ∧
        checked.lockTimeout = false := goesOn_runCheckRow hstops
  rw [hcall] at hedits
  simp only [checkStep, report_emit, hcall, htimeout, Bool.false_eq_true, if_false]
  have hstored : Accounted ((s.emit .checking .running base shown).store report') :=
    accounted_store (accounted_emit h .checking .running) hedits
  split_ifs with hfailed
  · obtain ⟨error, hget, -⟩ := runCheckRow_failed hn hrow (id_of_name hname) hcall hfailed
    have hmark : (checkFailureRow given error).isFailed := Row.isFailed_of_status rfl
    exact ⟨accounted_finishRow hstored hget (Row.isTerminal_of_isFailed hmark) hmark _ _, rfl⟩
  · exact ⟨accounted_emit hstored _ _, rfl⟩

theorem continues_applyStep (hopen : row.isTerminalNonblockingRow = false)
    (happly : b.apply.KeepsName row.name) (hfallback : b.fallback.Names row.name)
    (hwell : EndsWell base row b) : Continues s (s.applyStep base row b) := by
  have hedits := edits_applyRow hn hrow rfl happly
  rw [← fst_returnFailure row, ← runApplyRow] at hedits
  obtain ⟨report', applied, hcall, htimeout⟩ :
      ∃ report' applied, runApplyRow s.report row b.apply = (report', .ok applied) ∧
        applied.lockTimeout = false := goesOn_runApplyRow hwell.1
  have houtcome := runApplyRow_outcome hn hrow hopen hcall
  rw [hcall] at hedits
  simp only [applyStep, report_emit, hcall, htimeout, Bool.false_eq_true, if_false]
  have hstored : Accounted ((s.emit .applying .running base [row]).store report') :=
    accounted_store (accounted_emit h .applying .running) hedits
  split_ifs with hunchecked hfailed
  · obtain ⟨row', hrow', hname'⟩ := hedits.row_at hrow
    have hgiven : (applied.rows.head?.getD row).name = row'.name := by
      rw [hname']
      cases hhead : applied.rows.head? with
      | none => rfl
      | some item => exact names_runApplyRow hn hrow rfl happly hcall (List.mem_of_head? hhead)
    rw [← hname'] at hfallback
    rw [Bool.and_eq_true] at hunchecked
    have hstops := fallback_of_endsWell hwell houtcome hunchecked.1 hunchecked.2
    have hcheck : Continues ((s.emit .applying .running base [row]).store report')
        (((s.emit .applying .running base [row]).store report').checkStep base row
          (applied.rows.head?.getD row) (rowsOr applied.rows row) b.fallback) :=
      continues_checkStep (hn.edits hedits) hstored hrow' hgiven hfallback hstops
    exact ⟨hcheck.accounted, hcheck.ended⟩
  · obtain ⟨row', hrow', hterminal, hsame⟩ := finished_of_endsWell hwell houtcome hunchecked
    rw [hfailed] at hsame
    exact ⟨accounted_finishRow hstored hrow' hterminal hsame _ _, rfl⟩
  · obtain ⟨row', hrow', hterminal, hsame⟩ := finished_of_endsWell hwell houtcome hunchecked
    rw [Bool.not_eq_true] at hfailed
    rw [hfailed] at hsame
    exact ⟨accounted_finishRow hstored hrow' hterminal hsame _ _, rfl⟩

theorem continues_resolveStep (hopen : row.isTerminalNonblockingRow = false)
    (hfirst : findBlockingConflict s.report = some row) (hb : b.Names row.name)
    (hstops : b.resolve.stops = false)
    (hwell : ∀ answer ∈ b.resolve.resolveAnswer row.id,
      answer.isTerminalNonblockingRow = false → answer.isBlockingConflict = false →
        EndsWell row answer b) : Continues s (s.resolveStep row b) := by
  obtain ⟨-, hresolve, happly, hfallback⟩ := hb
  have hedits := edits_tryResolve hn hrow rfl hresolve
  rw [← fst_returnFailure row, ← runTryResolve] at hedits
  obtain ⟨report', resolved, hcall, htimeout⟩ :
      ∃ report' resolved, runTryResolve s.report row b.resolve = (report', .ok resolved) ∧
        resolved.lockTimeout = false := goesOn_runTryResolve hstops
  have hnames : ∀ item ∈ resolved.rows, item.name = row.name := fun item hitem =>
    names_runTryResolve hn hrow hfirst hresolve hcall hitem
  rw [hcall] at hedits
  obtain ⟨row', hrow', hname'⟩ := hedits.row_at hrow
  simp only [resolveStep, report_emit, hcall, htimeout, Bool.false_eq_true, if_false]
  have hstored : Accounted ((s.emit .resolving .running row [row]).store report') :=
    accounted_store (accounted_emit h .resolving .running) hedits
  split_ifs with hunresolved
  · have hfailedNames : ∀ update ∈ failedRows resolved row, update.name = row'.name :=
      fun update hupdate => (names_failedRows hnames update hupdate).trans hname'.symm
    have hmerge := edits_mergeReportRows (hn.edits hedits) hrow' hfailedNames
    obtain ⟨marked, hmarked, hfailed⟩ := exists_failed_merged hrow' hfailedNames
    have hmergedStore : Accounted (((s.emit .resolving .running row [row]).store report').store
        (mergeReportRows report' (failedRows resolved row))) := accounted_store hstored hmerge
    exact ⟨accounted_finishRow hmergedStore hmarked (Row.isTerminal_of_isFailed hfailed) hfailed
      _ _, rfl⟩
  · rw [Result.unresolved, Bool.or_eq_true, not_or, Bool.not_eq_true] at hunresolved
    obtain ⟨answer, hanswer, hget, honly⟩ := runTryResolve_ok hn hrow hopen hfirst hresolve hcall
      hunresolved.1
    have hcompleted : Accounted (((s.emit .resolving .running row [row]).store report').emit
        .resolving .completed row (rowsOr resolved.rows row)) := accounted_emit hstored _ _
    have hblocking : answer.isBlockingConflict = false := by
      rw [Bool.eq_false_iff]
      intro hb
      have hfind := List.find?_eq_none.mp
        (Option.not_isSome_iff_eq_none.mp hunresolved.2) answer
        (List.mem_of_head? honly.head)
      exact hfind hb
    simp only [applyResolved, report_emit, report_store, index_emit, index_store, hget]
    split_ifs with hterminal
    · exact ⟨accounted_finishRow hcompleted hget hterminal rfl _ _, rfl⟩
    · rw [Bool.not_eq_true] at hterminal
      have hanswerName : answer.name = row.name :=
        hnames answer (List.mem_of_head? honly.head)
      rw [← hanswerName] at happly hfallback
      have happlied := continues_applyStep
        (s := ((s.emit .resolving .running row [row]).store report').emit .resolving .completed
          row (rowsOr resolved.rows row))
        (hn.edits hedits) hcompleted hget hterminal happly hfallback
        (hwell answer hanswer hterminal hblocking)
      exact ⟨happlied.accounted, happlied.ended⟩

theorem continues_processRow (hb : b.Names row.name)
    (hfirst : row.conflictIsNext → findBlockingConflict s.report = some row)
    (hwell : row.isTerminalNonblockingRow = false → RowEndsWell row b) :
    Continues s (s.processRow row b) := by
  unfold processRow
  split_ifs with hterminal hneeds hconflict
  · exact ⟨accounted_finishRow h hrow hterminal rfl _ _, rfl⟩
  · rw [Bool.not_eq_true] at hterminal
    have hstops := hwell hterminal
    rw [RowEndsWell, if_pos hneeds] at hstops
    have hname : row.name = row.name := rfl
    exact continues_checkStep hn h hrow hname hb.1 hstops
  · rw [Bool.not_eq_true] at hterminal
    have hnext : row.conflictIsNext := by
      simp [Row.conflictIsNext, hterminal, hneeds, hconflict]
    have hends := hwell hterminal
    rw [RowEndsWell, if_neg hneeds, if_pos hconflict] at hends
    exact continues_resolveStep hn h hrow hterminal (hfirst hnext) hb hends.1 hends.2
  · rw [Bool.not_eq_true] at hterminal
    have hends := hwell hterminal
    rw [RowEndsWell, if_neg hneeds, if_neg hconflict] at hends
    exact continues_applyStep hn h hrow hterminal hb.2.2.1 hb.2.2.2 hends

end

/-- What a run keeps: the rows before the loop are accounted for, and a pass that has ended was
paused or is behind the last row. -/
structure RunAccounted (s : RunAll) : Prop where
  ids : DistinctIds s.report
  accounted : Accounted s
  ended : s.ended = none ∨ s.ended = some .paused ∨ s.index = s.report.length

theorem Accounted.congr (h : Accounted s) (hreport : t.report = s.report)
    (hindex : t.index = s.index) (hprocessed : t.processedCount = s.processedCount)
    (hfailed : t.failedCount = s.failedCount) : Accounted t := by
  refine ⟨?_, ?_, ?_, ?_⟩
  · rw [hreport, hindex]
    exact h.index
  · rw [hprocessed, hindex]
    exact h.processed
  · rw [hreport, hindex, hfailed]
    exact h.failed
  · rw [hreport, hindex]
    exact h.terminal

theorem accounted_of_zero (hindex : s.index = 0) (hprocessed : s.processedCount = 0)
    (hfailed : s.failedCount = 0) : Accounted s := by
  refine ⟨?_, hprocessed.trans hindex.symm, ?_, ?_⟩
  · rw [hindex]
    exact Nat.zero_le _
  · rw [hindex, List.take_zero, hfailed, List.countP_nil]
  · rw [hindex, List.take_zero]
    exact fun row hrow => absurd hrow List.not_mem_nil

theorem runAccounted_start {report : List Row} (hn : DistinctIds report) (run : ExecutionRun)
    (maxSteps : Option Nat) (pause : Bool) :
    RunAccounted (start report run maxSteps pause) := by
  have hids : DistinctIds (start report run maxSteps pause).report := by
    rw [report_start]
    exact hn
  cases pause with
  | false => exact ⟨hids, accounted_of_zero rfl rfl rfl, .inl rfl⟩
  | true => exact ⟨hids, accounted_of_zero rfl rfl rfl, .inr (.inl rfl)⟩

theorem runAccounted_step {a : RunAllAction} (h : RunAccounted s) (ha : Answers s a)
    (hc : AccountsFor s a) (hs : step s a = some s') : RunAccounted s' := by
  cases a with
  | resume maxSteps pause =>
    simp only [step] at hs
    split_ifs at hs
    cases hs
    exact runAccounted_start h.ids s.run maxSteps pause
  | iterate b =>
    obtain ⟨hsteps, hfirst, hwell⟩ := hc
    simp only [step] at hs
    split_ifs at hs with hended
    cases hs
    suffices hkept : Accounted (s.iterate b) ∧ ((s.iterate b).ended = none ∨
        (s.iterate b).ended = some .paused ∨
          (s.iterate b).index = (s.iterate b).report.length) from
      ⟨h.ids.edits (edits_iterate h.ids ha hfirst), hkept.1, hkept.2⟩
    cases hrow : s.current b with
    | some row =>
      have hget := current_eq_some hrow
      have hfind := findBlockingConflict_of_firstConflict hfirst hrow
      have hstep : Accounted { s with stepCount := s.stepCount + 1 } :=
        h.accounted.congr rfl rfl rfl rfl
      have hgoes := continues_processRow (s := { s with stepCount := s.stepCount + 1 }) h.ids
        hstep hget (ha row hrow) hfind (hwell row hrow)
      rw [iterate_of_current hrow]
      exact ⟨hgoes.accounted, .inl (hgoes.ended.trans hended)⟩
    | none =>
      have hindex := h.accounted.index
      obtain ⟨-, -, heq⟩ | ⟨hover, heq⟩ := iterate_of_none hrow
      · rw [heq]
        exact ⟨h.accounted.congr rfl rfl rfl rfl, .inr (.inl rfl)⟩
      · have hend : s.index = s.report.length := by
          by_contra hne
          have hlt : s.index < s.report.length := by omega
          exact hover ⟨hlt, hsteps hlt⟩
        rw [heq, finish, if_neg (by omega)]
        exact ⟨h.accounted.congr rfl rfl rfl rfl, .inr (.inr hend)⟩

/-- At the end of a pass that was not paused, the failed rows of the report are the failures the
pass counted, every row is finished, and every row was processed. -/
def AccountsForEveryRow (s : RunAll) : Prop :=
  s.ended ≠ none → s.ended ≠ some .paused →
    s.report.countP Row.isFailed = s.failedCount ∧
      (∀ row ∈ s.report, row.isTerminalNonblockingRow) ∧ s.processedCount = s.report.length

theorem accountsForEveryRow (h : RunAccounted s) : AccountsForEveryRow s := by
  intro hended hpaused
  obtain hnone | hpause | hend := h.ended
  · exact absurd hnone hended
  · exact absurd hpause hpaused
  · have hfailed := h.accounted.failed
    have hterminal := h.accounted.terminal
    rw [hend, List.take_length] at hfailed hterminal
    exact ⟨hfailed, hterminal, h.accounted.processed.trans hend⟩

def cleanRow : Row :=
  { name := { commit := ['c'] }, status := "success".toList, hasConflict := .bool false }

end WittyService

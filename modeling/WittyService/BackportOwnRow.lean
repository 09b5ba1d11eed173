import Mathlib.Data.Option.Basic
import WittyService.BackportFrames

/-! An iteration of `_run_all` changes the row it is at and no other, exactly when no conflict the
client still calls blocking stands before it. -/
namespace WittyService

open KeyedMerge GuardedRuns RunAll

def Answers (s : RunAll) : RunAllAction → Prop
  | .iterate b => ∀ row ∈ s.current b, b.Names row.name
  | .resume _ _ => True

/-- When the loop comes to resolve a conflict, no row before it is one the client calls a blocking
conflict. -/
def FirstConflict (s : RunAll) : RunAllAction → Prop
  | .iterate b => ∀ row ∈ s.current b, row.conflictIsNext →
      ∀ other ∈ s.report.take s.index, other.isBlockingConflict = false
  | .resume _ _ => True

instance (tool : Cvekit) (name : RowName) : Decidable (tool.Names name) :=
  inferInstanceAs (Decidable (∀ written ∈ tool.rows, written.name = name))

instance (tool : Cvekit) (name : RowName) : Decidable (tool.KeepsName name) :=
  inferInstanceAs (Decidable (∀ written ∈ tool.rows, written.id = name.id → written.name = name))

instance (b : Behaviour) (name : RowName) : Decidable (b.Names name) :=
  inferInstanceAs (Decidable (_ ∧ _ ∧ _ ∧ _))

instance (s : RunAll) : DecidablePred (Answers s)
  | .iterate b => inferInstanceAs (Decidable (∀ row ∈ s.current b, b.Names row.name))
  | .resume _ _ => isTrue trivial

instance (s : RunAll) : DecidablePred (FirstConflict s)
  | .iterate b => inferInstanceAs (Decidable (∀ row ∈ s.current b, row.conflictIsNext →
      ∀ other ∈ s.report.take s.index, other.isBlockingConflict = false))
  | .resume _ _ => isTrue trivial

/-- The conflict of the row the loop is at cannot be resolved. -/
def ConflictStays (s : RunAll) (b : Behaviour) (row : Row) : Prop :=
  row.conflictIsNext ∧ ∃ resolved, (runTryResolve s.report row b.resolve).2 = .ok resolved ∧
    resolved.lockTimeout = false ∧ resolved.unresolved

def TouchesOwnRow (s : RunAll) : RunAllAction → RunAll → Prop
  | .iterate b, s' =>
    (∀ j, j ≠ s.index → s'.report[j]? = s.report[j]?) ∧
      ∀ row ∈ s.current b, ConflictStays s b row →
        ∃ row', s'.report[s.index]? = some row' ∧ row'.isFailed
  | .resume _ _, s' => s'.report = s.report

variable {s s' : RunAll} {b : Behaviour} {row : Row} {a : RunAllAction}

theorem isBlocking_of_conflictIsNext (h : row.conflictIsNext) : row.isBlockingConflict := by
  simp only [Row.conflictIsNext, Bool.and_eq_true, Bool.not_eq_true'] at h
  exact Row.isBlocking_of_not_isTerminal h.1.1 h.2

theorem processRow_of_conflictIsNext (h : row.conflictIsNext) :
    s.processRow row b = s.resolveStep row b := by
  simp only [Row.conflictIsNext, Bool.and_eq_true, Bool.not_eq_true'] at h
  simp only [processRow, h.1.1, h.1.2, h.2, Bool.false_eq_true, if_false, if_true]

theorem findBlockingConflict_of_firstConflict (h : FirstConflict s (.iterate b))
    (hrow : s.current b = some row) (hnext : row.conflictIsNext) :
    findBlockingConflict s.report = some row :=
  findBlockingConflict_eq (current_eq_some hrow) (isBlocking_of_conflictIsNext hnext)
    (h row hrow hnext)

section

variable (hn : DistinctIds s.report)
include hn

theorem edits_iterate (ha : Answers s (.iterate b)) (hf : FirstConflict s (.iterate b)) :
    Edits Row.name s.index s.report (s.iterate b).report := by
  cases hrow : s.current b with
  | none =>
    obtain ⟨-, -, heq⟩ | ⟨-, heq⟩ := iterate_of_none hrow
    · rw [heq]
      exact Edits.refl s.report
    · rw [heq, report_finish]
      exact Edits.refl s.report
  | some row =>
    have hget := current_eq_some hrow
    have hfirst := findBlockingConflict_of_firstConflict hf hrow
    rw [iterate_of_current hrow]
    exact edits_processRow (s := { s with stepCount := s.stepCount + 1 }) hn hget (ha row hrow)
      hfirst

theorem failed_of_conflictStays (ha : Answers s (.iterate b))
    (hf : FirstConflict s (.iterate b)) (hrow : s.current b = some row)
    (hstays : ConflictStays s b row) :
    ∃ row', (s.iterate b).report[s.index]? = some row' ∧ row'.isFailed := by
  obtain ⟨hnext, resolved, hok, htimeout, hunresolved⟩ := hstays
  have hget := current_eq_some hrow
  have hfirst := findBlockingConflict_of_firstConflict hf hrow hnext
  have hresolve := (ha row hrow).2.1
  have hedits := edits_tryResolve hn hget rfl hresolve
  rw [← fst_returnFailure row, ← runTryResolve] at hedits
  rw [iterate_of_current hrow, processRow_of_conflictIsNext hnext]
  cases hcall : runTryResolve s.report row b.resolve with
  | mk report' outcome =>
    rw [hcall] at hok hedits
    cases hok
    obtain ⟨row', hrow', hname'⟩ := hedits.row_at hget
    simp only [resolveStep, report_emit, hcall, htimeout, hunresolved, Bool.false_eq_true,
      if_false, if_true, report_finishRow, report_store]
    have hnames : ∀ update ∈ failedRows resolved row, update.name = row.name :=
      names_failedRows fun item hitem =>
        names_runTryResolve hn hget hfirst hresolve hcall hitem
    exact exists_failed_merged hrow' fun update hupdate =>
      (hnames update hupdate).trans hname'.symm

theorem touches_other_of_earlier (hrow : s.current b = some row)
    (hnext : row.conflictIsNext) {other : Row} (hother : other ∈ s.report.take s.index)
    (hb : other.isBlockingConflict) :
    ∃ j, j ≠ s.index ∧ (s.iterate b).report[j]? ≠ s.report[j]? := by
  have hget := current_eq_some hrow
  obtain ⟨first, hfirst⟩ : ∃ first, (s.report.take s.index).find? Row.isBlockingConflict =
      some first := Option.isSome_iff_exists.mp (List.find?_isSome.mpr ⟨other, hother, hb⟩)
  have hblocking : first.isBlockingConflict := List.find?_some hfirst
  obtain ⟨j, hj⟩ := List.getElem?_of_mem (List.mem_of_find?_eq_some hfirst)
  have hlt : j < s.index := by
    have hlen := (List.getElem?_eq_some_iff.mp hj).1
    rw [List.length_take] at hlen
    omega
  rw [List.getElem?_take_of_lt hlt] at hj
  have hall : findBlockingConflict s.report = some first := by
    rw [findBlockingConflict, ← List.take_append_drop s.index s.report, List.find?_append, hfirst]
    rfl
  have hne : first.id ≠ row.id := by
    intro heq
    have hsame : first = row := hn.eq_of_id hget (List.mem_of_getElem? hj) heq
    rw [hsame] at hj
    have hidx := (List.getElem?_inj (List.getElem?_eq_some_iff.mp hj).1
      (List.Nodup.of_map Row.id hn)).mp (hj.trans hget.symm)
    omega
  obtain ⟨summary, hcall⟩ : ∃ summary, runTryResolve s.report row b.resolve =
      (s.report, .ok { failed := true, rows := [first], summary }) :=
    runTryResolve_other hget hn hall hne
  refine ⟨j, by omega, fun heq => ?_⟩
  rw [iterate_of_current hrow, processRow_of_conflictIsNext hnext] at heq
  simp only [resolveStep, report_emit, hcall, Result.unresolved, Bool.true_or,
    Bool.false_eq_true, if_false, if_true, report_finishRow, report_store] at heq
  have hnames : ∀ update ∈ failedRows { failed := true, rows := [first], summary } row,
      update.name = first.name := fun update hupdate => by
    rw [failedRows, rowsOr, if_neg (List.cons_ne_nil first []), List.map_singleton,
      List.mem_singleton] at hupdate
    rw [hupdate]
    rfl
  obtain ⟨row', hrow', hfailed⟩ := exists_failed_merged hj hnames
  rw [hrow', hj] at heq
  cases heq
  rw [Row.not_isFailed_of_isBlocking hblocking] at hfailed
  cases hfailed

theorem touchesOwnRow_iff (ha : Answers s a)
    (hs : step s a = some s') : TouchesOwnRow s a s' ↔ FirstConflict s a := by
  cases a with
  | resume maxSteps pause =>
    simp only [step] at hs
    split_ifs at hs
    cases hs
    exact iff_of_true (report_start _ _ _ _) trivial
  | iterate b =>
    simp only [step] at hs
    split_ifs at hs
    cases hs
    constructor
    · intro h row hrow hnext other hother
      by_contra hb
      rw [Bool.not_eq_false] at hb
      obtain ⟨j, hj, hne⟩ := touches_other_of_earlier hn hrow hnext hother hb
      exact hne (h.1 j hj)
    · intro hf
      refine ⟨(edits_iterate hn ha hf).others, fun row hrow hstays => ?_⟩
      exact failed_of_conflictStays hn ha hf hrow hstays

theorem distinctIds_step (ha : Answers s a) (hf : FirstConflict s a)
    (hs : step s a = some s') : DistinctIds s'.report := by
  cases a with
  | resume maxSteps pause =>
    simp only [step] at hs
    split_ifs at hs
    cases hs
    rw [report_start]
    exact hn
  | iterate b =>
    simp only [step] at hs
    split_ifs at hs
    cases hs
    exact hn.edits (edits_iterate hn ha hf)

end

def appliedConflict : Row :=
  { name := { commit := ['a'] }, status := "success".toList, hasConflict := .bool true,
    appliedCommit := ['f'] }

def openConflict : Row :=
  { name := { commit := ['b'] }, status := "conflict".toList, hasConflict := .bool true }

end WittyService

import Mathlib.Data.Option.Basic
import Mathlib.Tactic.SplitIfs
import WittyService.CaseArchive
import WittyService.GuardedRuns
import WittyService.TextParts

/-! What a sequence of calls does to the archive of a task: no stored file ever changes, and when
every artifact a call returned can still be read. -/
namespace WittyService

open GuardedRuns

variable {α P : Type*} {lower : PyStr → PyStr}

/-- An artifact that a call returned, with the bytes its file had then. -/
structure ReturnedArtifact where
  caseId : PyStr
  scope : ArchiveScope
  number : ℕ
  kind : ArtifactKind
  name : PyStr
  bytes : Option FileBytes

/-- The directories of the cases of a task, and the artifacts that were returned so far. -/
structure ArchiveRun where
  dirs : CaseDirs := .empty
  returned : List ReturnedArtifact := []

namespace ArchivedCase

def fileBytes (dirs : CaseDirs) (caseId name : PyStr) : Option FileBytes :=
  (dirs.get? caseId).bind fun dir => dir.files.get? name

def returned (archived : ArchivedCase) (dirs : CaseDirs) : List ReturnedArtifact :=
  archived.artifacts.entries.map fun entry =>
    { caseId := archived.caseId
      scope := archived.scope
      number := archived.number
      kind := entry.1
      name := entry.2
      bytes := fileBytes dirs archived.caseId entry.2 }

end ArchivedCase

def ArchiveRun.step [DecidableEq P] (lower : PyStr → PyStr) (s : ArchiveRun)
    (a : ArchiveTools α P × ArchiveCall α) : Option ArchiveRun :=
  let ended := archiveCaseAttempt lower a.1 a.2 s.dirs
  some
    { dirs := ended.1
      returned := s.returned ++
        (ended.2.map fun archived => archived.returned ended.1).getD [] }

/-- The file of every returned artifact has the bytes it had when the artifact was returned. -/
def Unchanged (s : ArchiveRun) : Prop :=
  ∀ r ∈ s.returned, ∃ bytes ∈ r.bytes,
    ArchivedCase.fileBytes s.dirs r.caseId r.name = some bytes

/-- Every returned artifact can be read. -/
def Readable (lower : PyStr → PyStr) (s : ArchiveRun) : Prop :=
  ∀ r ∈ s.returned, ∃ bytes ∈ r.bytes,
    readArtifact lower s.dirs r.caseId r.name = some bytes

def plannedKinds (steps : List ArtifactStep) : List ArtifactKind :=
  steps.filterMap fun
    | .raises => none
    | .store kind _ _ content => content.map fun _ => kind

/-- If the call returns artifacts, the id of its case is a slug, and within a run no kind of
artifact is stored that the case has already for this run. -/
def ArchiveFits [DecidableEq P] (lower : PyStr → PyStr) (s : ArchiveRun)
    (a : ArchiveTools α P × ArchiveCall α) : Prop :=
  ∀ row ∈ a.2.rows.head?,
    let caseId := (caseDir lower a.1 s.dirs row).1
    ∀ dir ∈ (caseDir lower a.1 s.dirs row).2.get? caseId, ∀ number ∈ a.2.archiveNumber dir.case,
      let files := a.2.withOriginal a.1 row dir.files
      let steps := a.2.steps lower a.1 row number (files.get? ORIGINAL_PATCH)
      .raises ∉ steps →
        ((files.get? ORIGINAL_PATCH).isSome ∨ plannedKinds steps ≠ [] →
          slug lower caseId "item".toList = caseId) ∧
        (a.2.scope = .run → ∀ kind ∈ plannedKinds steps,
          (dir.case.archived .run number).get? kind = none)

instance (s : ArchiveRun) : Decidable (Readable lower s) :=
  inferInstanceAs (Decidable (∀ r ∈ s.returned, _))

instance [DecidableEq P] (s : ArchiveRun) (a : ArchiveTools α P × ArchiveCall α) :
    Decidable (ArchiveFits lower s a) :=
  inferInstanceAs (Decidable (∀ row ∈ a.2.rows.head?, _))

def FilesKept (files files' : OrderedDict PyStr FileBytes) : Prop :=
  ∀ name bytes, files.get? name = some bytes → files'.get? name = some bytes

section naming
variable {taken : PyStr → Bool} {stem suffix name : PyStr}

theorem available_cases (h : availableArtifactName taken stem suffix = some name) :
    taken name = false ∧ (name = stem ++ suffix ∨ ∃ attemptNumber,
      name = stem ++ "-attempt-".toList ++ threeDigits attemptNumber ++ suffix) := by
  unfold availableArtifactName at h
  split at h
  · next hfree =>
    obtain rfl := Option.some.inj h
    exact ⟨hfree, .inl rfl⟩
  · obtain ⟨attemptNumber, -, hcandidate⟩ := List.exists_of_findSome?_eq_some h
    dsimp only at hcandidate
    split at hcandidate
    · cases hcandidate
    · next hfree =>
      obtain rfl := Option.some.inj hcandidate
      exact ⟨Bool.eq_false_of_not_eq_true hfree, .inr ⟨attemptNumber, rfl⟩⟩

end naming

section storing
variable {files files' files'' : OrderedDict PyStr FileBytes} {artifacts artifacts' : Artifacts}
  {steps : List ArtifactStep} {kind : ArtifactKind} {name : PyStr}

theorem FilesKept.refl (files : OrderedDict PyStr FileBytes) : FilesKept files files :=
  fun _ _ h => h

theorem FilesKept.trans (h : FilesKept files files') (h' : FilesKept files' files'') :
    FilesKept files files'' := fun name bytes hget => h' name bytes (h name bytes hget)

theorem filesKept_set (hnew : files.get? name = none) (bytes : FileBytes) :
    FilesKept files (files.set name bytes) := by
  intro other bytes' hget
  rw [OrderedDict.get?_set, if_neg ?_, hget]
  rintro rfl
  rw [hnew] at hget
  cases hget

theorem get?_of_isTaken (h : isTaken files name = false) : files.get? name = none := by
  simp only [isTaken, Bool.or_eq_false_iff, Option.isSome_eq_false_iff,
    Option.isNone_iff_eq_none] at h
  exact h.2

theorem filesKept_storeSteps (steps : List ArtifactStep) (files : OrderedDict PyStr FileBytes)
    (artifacts : Artifacts) : FilesKept files (storeSteps steps files artifacts).1 := by
  induction steps generalizing files artifacts with
  | nil => exact FilesKept.refl files
  | cons step steps ih =>
    cases step with
    | raises => exact FilesKept.refl files
    | store kind stem suffix content =>
      unfold storeSteps
      cases hname : availableArtifactName (isTaken files) stem suffix with
      | none => exact FilesKept.refl files
      | some name =>
        have hfree := get?_of_isTaken (available_cases hname).1
        cases content with
        | none => exact ih files artifacts
        | some bytes => exact (filesKept_set hfree bytes).trans (ih _ _)

/-- Each artifact names a file that is there. -/
def Backed (files : OrderedDict PyStr FileBytes) (artifacts : Artifacts) : Prop :=
  ∀ kind name, artifacts.get? kind = some name → (files.get? name).isSome

theorem backed_storeSteps (hb : Backed files artifacts)
    (h : (storeSteps steps files artifacts).2 = some artifacts') :
    Backed (storeSteps steps files artifacts).1 artifacts' := by
  induction steps generalizing files artifacts with
  | nil =>
    obtain rfl := Option.some.inj h
    exact hb
  | cons step steps ih =>
    cases step with
    | raises => cases h
    | store kind stem suffix content =>
      unfold storeSteps at h ⊢
      cases hname : availableArtifactName (isTaken files) stem suffix with
      | none =>
        rw [hname] at h
        cases h
      | some name =>
        rw [hname] at h
        have hfree := get?_of_isTaken (available_cases hname).1
        cases content with
        | none => exact ih hb h
        | some bytes =>
          refine ih (fun kind' name' hget => ?_) h
          rw [OrderedDict.get?_set] at hget
          split at hget
          · obtain rfl := Option.some.inj hget
            rw [OrderedDict.get?_set, if_pos rfl]
            rfl
          · obtain ⟨old, hold⟩ := Option.isSome_iff_exists.mp (hb kind' name' hget)
            rw [filesKept_set hfree bytes name' old hold]
            rfl

theorem storeSteps_kinds (h : (storeSteps steps files artifacts).2 = some artifacts')
    (hget : artifacts'.get? kind = some name) :
    artifacts.get? kind = some name ∨ kind ∈ plannedKinds steps := by
  induction steps generalizing files artifacts with
  | nil =>
    obtain rfl := Option.some.inj h
    exact .inl hget
  | cons step steps ih =>
    cases step with
    | raises => cases h
    | store kind' stem suffix content =>
      unfold storeSteps at h
      cases hname : availableArtifactName (isTaken files) stem suffix with
      | none =>
        rw [hname] at h
        cases h
      | some name' =>
        rw [hname] at h
        cases content with
        | none =>
          refine (ih h).imp_right fun hmem => ?_
          exact hmem
        | some bytes =>
          change artifacts.get? kind = some name ∨ kind ∈ kind' :: plannedKinds steps
          rw [List.mem_cons]
          obtain hold | hmem := ih h
          · rw [OrderedDict.get?_set] at hold
            split at hold
            · next heq => exact .inr (.inl heq)
            · exact .inl hold
          · exact .inr (.inr hmem)

theorem not_raises_of_stored (h : (storeSteps steps files artifacts).2 = some artifacts') :
    .raises ∉ steps := by
  induction steps generalizing files artifacts with
  | nil => exact List.not_mem_nil
  | cons step steps ih =>
    cases step with
    | raises => cases h
    | store kind stem suffix content =>
      unfold storeSteps at h
      cases hname : availableArtifactName (isTaken files) stem suffix with
      | none =>
        rw [hname] at h
        cases h
      | some name =>
        rw [hname] at h
        have hrest : .raises ∉ steps := by
          cases content with
          | none | some bytes => exact ih h
        intro hmem
        obtain heq | hmem := List.mem_cons.mp hmem
        · cases heq
        · exact hrest hmem

end storing

def PlainStep : ArtifactStep → Prop
  | .raises => True
  | .store kind stem suffix _ => kind ≠ .originalPatch ∧ '/' ∉ stem ∧ '/' ∉ suffix ∧
      2 ≤ suffix.length

section plain
variable {tools : ArchiveTools α P} {call : ArchiveCall α} {row : ReportRow α} {number : ℕ}
  {stem : PyStr}

variable {fallback : PyStr}

theorem slash_not_mem_safeSlug (h : '/' ∉ fallback) (value : PyStr)
    (maxLength : ℕ) : '/' ∉ safeSlug lower value fallback maxLength := by
  intro hmem
  have htake := List.mem_of_mem_take ((List.rdropWhile_prefix _ _).subset hmem)
  split at htake
  · exact h htake
  · obtain hsep | ⟨part, hpart, hslash⟩ := TextParts.of_mem_intercalate htake
    · exact absurd (List.mem_singleton.mp hsep) (by decide)
    · have hslug := TextParts.not_of_mem_splitOnP (List.mem_filter.mp hpart).1 hslash
      exact absurd hslug (by decide)

theorem slash_not_mem_threeDigits (number : ℕ) : '/' ∉ threeDigits number := by
  intro hmem
  obtain hzero | hdigit := List.mem_append.mp hmem
  · exact absurd (List.eq_of_mem_replicate hzero) (by decide)
  · have hisDigit := Nat.isDigit_of_mem_toDigits (by decide) (by decide) hdigit
    exact absurd hisDigit (by decide)

theorem slash_not_mem_slug (h : '/' ∉ fallback) (value : PyStr) :
    '/' ∉ slug lower value fallback := slash_not_mem_safeSlug h value 96

theorem slash_not_mem_runSuffix (call : ArchiveCall α) : '/' ∉ call.runSuffix lower := by
  have hnil : '/' ∉ ([] : PyStr) := List.not_mem_nil
  have hslug : '/' ∉ slug lower call.runId [] := slash_not_mem_slug hnil call.runId
  unfold ArchiveCall.runSuffix
  dsimp only
  split
  · exact List.not_mem_nil
  · intro hmem
    obtain heq | hmem := List.mem_cons.mp hmem
    · exact absurd heq (by decide)
    · exact hslug hmem

theorem slash_not_mem_artifactStem (call : ArchiveCall α) (number : ℕ) :
    '/' ∉ call.artifactStem number := by
  intro hmem
  obtain hscope | hdigits := List.mem_append.mp hmem
  · cases hs : call.scope with
    | run | interaction =>
      rw [hs] at hscope
      revert hscope
      decide
  · exact slash_not_mem_threeDigits number hdigits

theorem slash_not_mem_backportSuffix (tools : ArchiveTools α P) (row : ReportRow α) :
    '/' ∉ ArchiveCall.backportSuffix lower tools row := by
  unfold ArchiveCall.backportSuffix
  extract_lets
  split_ifs
  · intro hmem
    obtain heq | hmem := List.mem_cons.mp hmem
    · exact absurd heq (by decide)
    · exact slash_not_mem_slug (by decide) _ hmem
  · exact List.not_mem_nil

theorem slash_not_mem_append {first second : PyStr} (h : '/' ∉ first) (h' : '/' ∉ second) :
    '/' ∉ first ++ second := by
  rw [List.mem_append]
  exact fun hmem => hmem.elim h h'

variable (tools call row) in
theorem plain_steps [DecidableEq P] (number : ℕ) (original : Option FileBytes) :
    ∀ step ∈ call.steps lower tools row number original, PlainStep step := by
  have hstem := slash_not_mem_artifactStem call number
  intro step hstep
  simp only [ArchiveCall.steps, List.mem_append] at hstep
  obtain ((hstep | hstep) | hstep) | hstep := hstep
  · unfold ArchiveCall.resolvedSteps at hstep
    split at hstep
    · split at hstep
      · rw [List.mem_singleton.mp hstep]
        exact ⟨by decide, slash_not_mem_append hstem (by decide), by decide, by decide⟩
      · cases hstep
    · cases hstep
  · unfold ArchiveCall.batchSteps at hstep
    split at hstep
    · split at hstep
      · rw [List.mem_singleton.mp hstep]
        trivial
      · split at hstep
        · cases hstep
        · split at hstep
          · rw [List.mem_singleton.mp hstep]
            refine ⟨by decide, ?_, by decide, by decide⟩
            exact slash_not_mem_append (slash_not_mem_append hstem (by decide))
              (slash_not_mem_runSuffix call)
          · rw [List.mem_singleton.mp hstep]
            refine ⟨by decide, ?_, by decide, by decide⟩
            exact slash_not_mem_append (slash_not_mem_append
              (slash_not_mem_append hstem (by decide)) (slash_not_mem_backportSuffix tools row))
              (slash_not_mem_runSuffix call)
    · cases hstep
  · unfold ArchiveCall.engineSteps at hstep
    dsimp only at hstep
    split at hstep
    · rw [List.mem_singleton.mp hstep]
      refine ⟨by decide, ?_, by decide, by decide⟩
      exact slash_not_mem_append (slash_not_mem_append (slash_not_mem_append hstem (by decide))
        (slash_not_mem_slug (by decide) _)) (slash_not_mem_runSuffix call)
    · cases hstep
  · have hconflict : ∀ content, PlainStep (.store .conflictReport
        (call.artifactStem number ++ "-conflict-report".toList) ".json".toList content) :=
      fun content => ⟨by decide, slash_not_mem_append hstem (by decide), by decide, by decide⟩
    unfold ArchiveCall.conflictSteps at hstep
    split at hstep
    · split at hstep
      · rw [List.mem_singleton.mp hstep]
        exact hconflict _
      · rw [List.mem_singleton.mp hstep]
        trivial
    · split at hstep
      · cases hstep
      · rw [List.mem_singleton.mp hstep]
        exact hconflict _

end plain

section names
variable {files : OrderedDict PyStr FileBytes} {artifacts artifacts' : Artifacts}
  {steps : List ArtifactStep} {kind : ArtifactKind} {name : PyStr}

theorem isFileName_of_available {taken : PyStr → Bool} {stem suffix : PyStr}
    (hstem : '/' ∉ stem) (hsuffix : '/' ∉ suffix) (hlen : 2 ≤ suffix.length)
    (h : availableArtifactName taken stem suffix = some name) : isFileName name := by
  have hplain : ∀ front : PyStr, '/' ∉ front → isFileName (front ++ suffix) := by
    intro front hfront
    have hne : front ++ suffix ≠ ['.'] := by
      intro heq
      have hlength := congrArg List.length heq
      rw [List.length_append, List.length_singleton] at hlength
      omega
    simp [isFileName, slash_not_mem_append hfront hsuffix, hne]
  obtain rfl | ⟨attemptNumber, rfl⟩ := (available_cases h).2
  · exact hplain stem hstem
  · refine hplain _ (slash_not_mem_append (slash_not_mem_append hstem (by decide)) ?_)
    exact slash_not_mem_threeDigits attemptNumber

/-- What the artifacts of a call are named: files, and the original patch by its own name. -/
def PlainArtifacts (artifacts : Artifacts) : Prop :=
  ∀ kind name, artifacts.get? kind = some name →
    isFileName name ∧ (kind = .originalPatch → name = ORIGINAL_PATCH)

theorem plainArtifacts_storeSteps (hplain : ∀ step ∈ steps, PlainStep step)
    (hp : PlainArtifacts artifacts)
    (h : (storeSteps steps files artifacts).2 = some artifacts') : PlainArtifacts artifacts' := by
  induction steps generalizing files artifacts with
  | nil =>
    obtain rfl := Option.some.inj h
    exact hp
  | cons step steps ih =>
    have hrest : ∀ step ∈ steps, PlainStep step := fun step hstep =>
      hplain step (List.mem_cons_of_mem _ hstep)
    cases step with
    | raises => cases h
    | store kind' stem suffix content =>
      obtain ⟨hkind, hstem, hsuffix, hlen⟩ := hplain _ List.mem_cons_self
      unfold storeSteps at h
      cases hname : availableArtifactName (isTaken files) stem suffix with
      | none =>
        rw [hname] at h
        cases h
      | some name' =>
        rw [hname] at h
        cases content with
        | none => exact ih hrest hp h
        | some bytes =>
          refine ih hrest (fun kind name hget => ?_) h
          rw [OrderedDict.get?_set] at hget
          split at hget
          · next heq =>
            obtain rfl := Option.some.inj hget
            refine ⟨isFileName_of_available hstem hsuffix hlen hname, fun horiginal => ?_⟩
            exact absurd (heq.symm.trans horiginal) hkind
          · exact hp kind name hget

theorem get?_originalArtifact (h : (originalArtifact files).get? kind = some name) :
    kind = .originalPatch ∧ name = ORIGINAL_PATCH ∧ (files.get? ORIGINAL_PATCH).isSome := by
  unfold originalArtifact at h
  split at h
  · next hsome =>
    rw [OrderedDict.get?_set] at h
    split at h
    · next heq => exact ⟨heq, (Option.some.inj h).symm, hsome⟩
    · cases h
  · cases h

theorem plainArtifacts_original (files : OrderedDict PyStr FileBytes) :
    PlainArtifacts (originalArtifact files) := by
  intro kind name h
  obtain ⟨-, rfl, -⟩ := get?_originalArtifact h
  exact ⟨by decide, fun _ => rfl⟩

theorem backed_original (files : OrderedDict PyStr FileBytes) :
    Backed files (originalArtifact files) := by
  intro kind name h
  obtain ⟨-, rfl, hsome⟩ := get?_originalArtifact h
  exact hsome

end names

/-- Every directory is still there, with all its files. -/
def DirsKept (dirs dirs' : CaseDirs) : Prop :=
  ∀ id dir, dirs.get? id = some dir →
    ∃ dir', dirs'.get? id = some dir' ∧ FilesKept dir.files dir'.files

section calls
variable {tools : ArchiveTools α P} {call : ArchiveCall α} {row : ReportRow α}
  {dirs dirs' : CaseDirs} {dir dir' : CaseDir} {id : PyStr}

theorem get?_caseDir (h : dirs.get? id = some dir) :
    (caseDir lower tools dirs row).2.get? id = some dir := by
  unfold caseDir
  dsimp only
  split
  · exact h
  · split
    · exact h
    · next hnew =>
      rw [OrderedDict.get?_set, if_neg ?_, h]
      rintro rfl
      rw [h] at hnew
      exact hnew rfl

theorem caseDir_found (lower : PyStr → PyStr) (tools : ArchiveTools α P) (dirs : CaseDirs)
    (row : ReportRow α) : ∃ dir, (caseDir lower tools dirs row).2.get?
      (caseDir lower tools dirs row).1 = some dir := by
  unfold caseDir
  dsimp only
  split
  · next id hfind =>
    have hsome := List.find?_some hfind
    cases hget : dirs.get? id with
    | none =>
      rw [hget] at hsome
      cases hsome
    | some dir => exact ⟨dir, rfl⟩
  · split
    · next hsome => exact Option.isSome_iff_exists.mp hsome
    · exact ⟨_, by rw [OrderedDict.get?_set, if_pos rfl]⟩

theorem filesKept_withOriginal (tools : ArchiveTools α P) (call : ArchiveCall α)
    (row : ReportRow α) (files : OrderedDict PyStr FileBytes) :
    FilesKept files (call.withOriginal tools row files) := by
  unfold ArchiveCall.withOriginal
  split
  · exact FilesKept.refl files
  · next hnone =>
    split
    · exact filesKept_set (Option.not_isSome_iff_eq_none.mp hnone) _
    · exact FilesKept.refl files

structure Reaches (lower : PyStr → PyStr) (tools : ArchiveTools α P) (call : ArchiveCall α)
    (dirs : CaseDirs) (row : ReportRow α) (dir : CaseDir) (number : ℕ) : Prop where
  first : call.rows.head? = some row
  found : (caseDir lower tools dirs row).2.get? (caseDir lower tools dirs row).1 = some dir
  numbered : call.archiveNumber dir.case = some number

def storedBy [DecidableEq P] (lower : PyStr → PyStr) (tools : ArchiveTools α P)
    (call : ArchiveCall α) (row : ReportRow α) (dir : CaseDir) (number : ℕ) :
    OrderedDict PyStr FileBytes × Option Artifacts :=
  let files := call.withOriginal tools row dir.files
  storeSteps (call.steps lower tools row number (files.get? ORIGINAL_PATCH)) files
    (originalArtifact files)

/-- The directories after the steps, with the case as `case.json` has it then. -/
def storedDirs [DecidableEq P] (lower : PyStr → PyStr) (tools : ArchiveTools α P)
    (call : ArchiveCall α) (dirs : CaseDirs) (row : ReportRow α) (dir : CaseDir) (number : ℕ)
    (case : CaseFile) : CaseDirs :=
  (caseDir lower tools dirs row).2.set (caseDir lower tools dirs row).1
    { case, files := (storedBy lower tools call row dir number).1 }

section

variable [DecidableEq P] (lower : PyStr → PyStr) (tools : ArchiveTools α P) (call : ArchiveCall α)

/-- What a call does: it leaves the directories there are, or it comes to the steps of a case, and
raises there or registers what they stored. -/
theorem archive_cases (dirs : CaseDirs) :
    ((archiveCaseAttempt lower tools call dirs).2 = none ∧
      ∀ id dir, dirs.get? id = some dir →
        (archiveCaseAttempt lower tools call dirs).1.get? id = some dir) ∨
    ∃ row dir number, Reaches lower tools call dirs row dir number ∧
      ((storedBy lower tools call row dir number).2 = none ∧
        archiveCaseAttempt lower tools call dirs =
          (storedDirs lower tools call dirs row dir number dir.case, none) ∨
      ∃ artifacts, (storedBy lower tools call row dir number).2 = some artifacts ∧
        archiveCaseAttempt lower tools call dirs =
          (storedDirs lower tools call dirs row dir number (dir.case.register call.scope number
            (originalArtifact (call.withOriginal tools row dir.files)) artifacts),
          some
            { caseId := (caseDir lower tools dirs row).1
              scope := call.scope
              number := number
              artifacts := artifacts })) := by
  unfold archiveCaseAttempt
  cases hrows : call.rows with
  | nil => exact .inl ⟨rfl, fun id dir h => h⟩
  | cons row rows =>
    obtain ⟨dir, hdir⟩ := caseDir_found lower tools dirs row
    simp only [hdir]
    cases hnumber : call.archiveNumber dir.case with
    | none => exact .inl ⟨rfl, fun id dir h => get?_caseDir h⟩
    | some number =>
      refine .inr ⟨row, dir, number, ⟨by rw [hrows, List.head?_cons], hdir, hnumber⟩, ?_⟩
      cases hstored : storedBy lower tools call row dir number with
      | mk files artifacts =>
        have hsteps := hstored
        unfold storedBy at hsteps
        simp only [hsteps, storedDirs, hstored]
        cases artifacts with
        | none => exact .inl ⟨rfl, rfl⟩
        | some artifacts => exact .inr ⟨artifacts, rfl, rfl⟩

theorem filesKept_storedBy (row : ReportRow α) (dir : CaseDir) (number : ℕ) :
    FilesKept dir.files (storedBy lower tools call row dir number).1 :=
  (filesKept_withOriginal tools call row dir.files).trans (filesKept_storeSteps _ _ _)

end

theorem dirsKept_storedDirs [DecidableEq P] {number : ℕ}
    (h : Reaches lower tools call dirs row dir number) (case : CaseFile) :
    DirsKept dirs (storedDirs lower tools call dirs row dir number case) := by
  intro id dir' hdir'
  rw [storedDirs, OrderedDict.get?_set]
  split
  · next heq =>
    have hget : (caseDir lower tools dirs row).2.get? id = some dir' := get?_caseDir hdir'
    rw [heq, h.found] at hget
    obtain rfl := Option.some.inj hget
    exact ⟨_, rfl, filesKept_storedBy lower tools call row dir number⟩
  · exact ⟨dir', get?_caseDir hdir', FilesKept.refl _⟩

theorem dirsKept_archive [DecidableEq P] (lower : PyStr → PyStr) (tools : ArchiveTools α P)
    (call : ArchiveCall α) (dirs : CaseDirs) :
    DirsKept dirs (archiveCaseAttempt lower tools call dirs).1 := by
  obtain ⟨-, hkept⟩ | ⟨row, dir, number, hreaches, ⟨-, heq⟩ | ⟨artifacts, -, heq⟩⟩ :=
    archive_cases lower tools call dirs
  · exact fun id dir hdir => ⟨dir, hkept id dir hdir, FilesKept.refl _⟩
  · rw [heq]
    exact dirsKept_storedDirs hreaches _
  · rw [heq]
    exact dirsKept_storedDirs hreaches _

theorem fileBytes_kept {name : PyStr} {bytes : FileBytes} (h : DirsKept dirs dirs')
    (hbytes : ArchivedCase.fileBytes dirs id name = some bytes) :
    ArchivedCase.fileBytes dirs' id name = some bytes := by
  obtain ⟨dir, hdir, hget⟩ := Option.bind_eq_some_iff.mp hbytes
  obtain ⟨dir', hdir', hfiles⟩ := h id dir hdir
  exact Option.bind_eq_some_iff.mpr ⟨dir', hdir', hfiles name bytes hget⟩

end calls

section runs
variable [DecidableEq P] {s s' : ArchiveRun} {a : ArchiveTools α P × ArchiveCall α}
  {r : ReturnedArtifact}

/-- An artifact returned by now was returned before, or by a call that came to the steps of its
case and registered what they stored. -/
theorem returned_cases (hs : s.step lower a = some s') (hr : r ∈ s'.returned) :
    r ∈ s.returned ∨ ∃ row dir number artifacts,
      Reaches lower a.1 a.2 s.dirs row dir number ∧
      (storedBy lower a.1 a.2 row dir number).2 = some artifacts ∧
      s'.dirs = storedDirs lower a.1 a.2 s.dirs row dir number (dir.case.register a.2.scope number
        (originalArtifact (a.2.withOriginal a.1 row dir.files)) artifacts) ∧
      r.caseId = (caseDir lower a.1 s.dirs row).1 ∧ r.scope = a.2.scope ∧ r.number = number ∧
      artifacts.get? r.kind = some r.name ∧
      r.bytes = (storedBy lower a.1 a.2 row dir number).1.get? r.name := by
  obtain rfl := Option.some.inj hs
  obtain hold | hnew := List.mem_append.mp hr
  · exact .inl hold
  · obtain ⟨hnone, -⟩ | ⟨row, dir, number, hreaches, ⟨-, heq⟩ | ⟨artifacts, hstored, heq⟩⟩ :=
      archive_cases lower a.1 a.2 s.dirs
    · rw [hnone] at hnew
      cases hnew
    · rw [heq] at hnew
      cases hnew
    · rw [heq] at hnew ⊢
      obtain ⟨entry, hentry, rfl⟩ := List.mem_map.mp hnew
      refine .inr ⟨row, dir, number, artifacts, hreaches, hstored, rfl, rfl, rfl, rfl,
        OrderedDict.get?_eq_some_iff.mpr hentry, ?_⟩
      simp [ArchivedCase.fileBytes, storedDirs, OrderedDict.get?_set]

theorem unchanged_step (h : Unchanged s) (hs : s.step lower a = some s') : Unchanged s' := by
  intro r hr
  obtain hold | ⟨row, dir, number, artifacts, -, hstored, hdirs, hid, -, -, hget, hbytes⟩ :=
    returned_cases hs hr
  · obtain ⟨bytes, hbytes, hfile⟩ := h r hold
    obtain rfl := Option.some.inj hs
    exact ⟨bytes, hbytes, fileBytes_kept (dirsKept_archive lower a.1 a.2 s.dirs) hfile⟩
  · have hbacked := backed_storeSteps (backed_original _) hstored r.kind r.name hget
    obtain ⟨bytes, hfile⟩ := Option.isSome_iff_exists.mp hbacked
    refine ⟨bytes, hbytes.trans hfile, ?_⟩
    rw [hdirs, hid]
    simp only [ArchivedCase.fileBytes, storedDirs, OrderedDict.get?_set, if_true,
      Option.bind_some]
    exact hfile

end runs

section registering
variable {case : CaseFile} {scope scope' : ArchiveScope} {number number' : ℕ}
  {original artifacts : Artifacts} {kind : ArtifactKind} {name : PyStr}

theorem get?_archived_register :
    ((case.register scope number original artifacts).archived scope' number').get? kind =
      if scope' = scope ∧ number' = number then
        (artifacts.get? kind).or ((case.archived scope number).get? kind)
      else (case.archived scope' number').get? kind := by
  have hupdate := OrderedDict.get?_update (d := case.archived scope number) artifacts kind
  cases scope with
  | run =>
    cases scope' with
    | run =>
      simp only [CaseFile.register, CaseFile.archived, CaseFile.collection,
        OrderedDict.get?_set, true_and] at hupdate ⊢
      split
      · exact hupdate
      · rfl
    | interaction => rfl
  | interaction =>
    cases scope' with
    | run => rfl
    | interaction =>
      simp only [CaseFile.register, CaseFile.archived, CaseFile.collection,
        OrderedDict.get?_set, true_and] at hupdate ⊢
      split
      · exact hupdate
      · rfl

theorem mem_registered (h : (case.archived scope number).get? kind = some name) :
    name ∈ case.registered := by
  obtain ⟨artifacts, hcollection, hget⟩ :
      ∃ artifacts, (case.collection scope).get? number = some artifacts ∧
        artifacts.get? kind = some name := by
    unfold CaseFile.archived at h
    cases hcollection : (case.collection scope).get? number with
    | none =>
      rw [hcollection] at h
      cases h
    | some artifacts =>
      rw [hcollection, Option.getD_some] at h
      exact ⟨artifacts, rfl, h⟩
  have hentry := OrderedDict.get?_eq_some_iff.mp hcollection
  have hname := List.mem_map_of_mem (f := Prod.snd) (OrderedDict.get?_eq_some_iff.mp hget)
  refine List.mem_append_right _ (List.mem_flatMap.mpr ⟨(number, artifacts), ?_, hname⟩)
  cases scope with
  | run => exact List.mem_append_left _ hentry
  | interaction => exact List.mem_append_right _ hentry

theorem le_max_foldl (numbers : List ℕ) (start : ℕ) :
    start ≤ numbers.foldl max start ∧ ∀ n ∈ numbers, n ≤ numbers.foldl max start := by
  induction numbers generalizing start with
  | nil => exact ⟨le_refl start, fun n hn => absurd hn List.not_mem_nil⟩
  | cons m numbers ih =>
    obtain ⟨hstart, hmem⟩ := ih (max start m)
    rw [List.foldl_cons]
    refine ⟨by omega, fun n hn => ?_⟩
    obtain rfl | hn := List.mem_cons.mp hn
    · omega
    · exact hmem n hn

theorem archived_of_interaction {call : ArchiveCall α} (hscope : call.scope = .interaction)
    (h : call.archiveNumber case = some number) :
    (case.archived .interaction number).get? kind = none := by
  rw [ArchiveCall.archiveNumber, hscope] at h
  obtain rfl := Option.some.inj h
  have hfresh : case.interactions.get? ((case.interactions.entries.map Prod.fst).foldl max
      case.lastInteraction + 1) = none := by
    rw [← Option.not_isSome_iff_eq_none, OrderedDict.get?_isSome_iff]
    intro hmem
    have hle := (le_max_foldl _ case.lastInteraction).2 _ hmem
    omega
  simp only [CaseFile.archived, CaseFile.collection, hfresh, Option.getD_none]
  rfl

end registering

/-- An artifact that is still registered where it was. -/
structure Registered (lower : PyStr → PyStr) (dirs : CaseDirs) (r : ReturnedArtifact) : Prop where
  archived : ∃ dir, dirs.get? r.caseId = some dir ∧
    (dir.case.archived r.scope r.number).get? r.kind = some r.name
  slug : slug lower r.caseId "item".toList = r.caseId
  fileName : isFileName r.name
  original : r.kind = .originalPatch → r.name = ORIGINAL_PATCH

theorem readable_of_registered {s : ArchiveRun} (h : Unchanged s)
    (hr : ∀ r ∈ s.returned, Registered lower s.dirs r) : Readable lower s := by
  intro r hmem
  obtain ⟨bytes, hbytes, hfile⟩ := h r hmem
  obtain ⟨⟨dir, hdir, harchived⟩, hslug, hname, -⟩ := hr r hmem
  refine ⟨bytes, hbytes, ?_⟩
  rw [readArtifact, hslug, hdir, Option.bind_some, if_pos ⟨mem_registered harchived, hname⟩]
  rw [ArchivedCase.fileBytes, hdir, Option.bind_some] at hfile
  exact hfile

section runs
variable [DecidableEq P] {s s' : ArchiveRun} {a : ArchiveTools α P × ArchiveCall α}
  {r : ReturnedArtifact}

variable {tools : ArchiveTools α P} {call : ArchiveCall α}

theorem archived_none_of_fits
    {row : ReportRow α} {dir : CaseDir} {number : ℕ} {artifacts : Artifacts} {kind : ArtifactKind}
    (hfits : ArchiveFits lower s (tools, call))
    (hreaches : Reaches lower tools call s.dirs row dir number)
    (hstored : (storedBy lower tools call row dir number).2 = some artifacts)
    (hkind : kind ∈ plannedKinds (call.steps lower tools row number
      ((call.withOriginal tools row dir.files).get? ORIGINAL_PATCH))) :
    (dir.case.archived call.scope number).get? kind = none := by
  obtain ⟨-, hrun⟩ := hfits row hreaches.first dir hreaches.found number hreaches.numbered
    (not_raises_of_stored hstored)
  cases hscope : call.scope with
  | run => exact hrun hscope kind hkind
  | interaction => exact archived_of_interaction hscope hreaches.numbered

theorem registered_kept
    (hfits : ArchiveFits lower s (tools, call)) (h : Registered lower s.dirs r) :
    Registered lower (archiveCaseAttempt lower tools call s.dirs).1 r := by
  obtain ⟨⟨dir, hdir, harchived⟩, hslug, hname, horiginal⟩ := h
  refine ⟨?_, hslug, hname, horiginal⟩
  obtain ⟨-, hkept⟩ | ⟨row, dir', number, hreaches, hended⟩ :=
    archive_cases lower tools call s.dirs
  · exact ⟨dir, hkept _ dir hdir, harchived⟩
  · have hget : (caseDir lower tools s.dirs row).2.get? r.caseId = some dir := get?_caseDir hdir
    obtain ⟨-, heq⟩ | ⟨artifacts, hstored, heq⟩ := hended
    · rw [heq]
      simp only [storedDirs, OrderedDict.get?_set]
      split
      · next hid =>
        rw [hid, hreaches.found] at hget
        obtain rfl := Option.some.inj hget
        exact ⟨_, rfl, harchived⟩
      · exact ⟨dir, hget, harchived⟩
    · rw [heq]
      simp only [storedDirs, OrderedDict.get?_set]
      split
      · next hid =>
        rw [hid, hreaches.found] at hget
        obtain rfl := Option.some.inj hget
        refine ⟨_, rfl, ?_⟩
        rw [get?_archived_register]
        split
        · next hsame =>
          obtain ⟨hscope, hnumber⟩ := hsame
          rw [hscope, hnumber] at harchived
          rw [harchived]
          cases hnew : artifacts.get? r.kind with
          | none => rfl
          | some name =>
            obtain hold | hplanned := storeSteps_kinds hstored hnew
            · obtain ⟨hkind, rfl, -⟩ := get?_originalArtifact hold
              rw [horiginal hkind]
              rfl
            · have hnone := archived_none_of_fits hfits hreaches hstored hplanned
              rw [harchived] at hnone
              cases hnone
        · exact harchived
      · exact ⟨dir, hget, harchived⟩

theorem registered_step (hfits : ArchiveFits lower s a)
    (h : ∀ r ∈ s.returned, Registered lower s.dirs r) (hs : s.step lower a = some s') :
    ∀ r ∈ s'.returned, Registered lower s'.dirs r := by
  intro r hr
  obtain hold | ⟨row, dir, number, artifacts, hreaches, hstored, hdirs, hid, hscope, hnumber, hget,
    -⟩ := returned_cases hs hr
  · obtain rfl := Option.some.inj hs
    exact registered_kept hfits (h r hold)
  · obtain ⟨hslug, -⟩ := hfits row hreaches.first dir hreaches.found number hreaches.numbered
      (not_raises_of_stored hstored)
    have hplain := plainArtifacts_storeSteps (plain_steps a.1 a.2 row number _)
      (plainArtifacts_original _) hstored r.kind r.name hget
    refine ⟨?_, ?_, hplain.1, hplain.2⟩
    · rw [hdirs, hid]
      refine ⟨_, by rw [storedDirs, OrderedDict.get?_set, if_pos rfl], ?_⟩
      rw [get?_archived_register, if_pos ⟨hscope, hnumber⟩, hget]
      rfl
    · rw [hid]
      apply hslug
      obtain hold | hplanned := storeSteps_kinds hstored hget
      · exact .inl (get?_originalArtifact hold).2.2
      · exact .inr (List.ne_nil_of_mem hplanned)

/-- Over every sequence of calls the stored files stay as they are. When no call of a run takes a
kind of artifact that the case has already for the run, and the ids of the cases are slugs, every
artifact that was returned can be read, with the bytes it had then. -/
theorem archive_append_only (lower : PyStr → PyStr) (as : List (ArchiveTools α P × ArchiveCall α)) :
    Always (ArchiveRun.step lower) Unchanged {} as ∧
      (Guarded (ArchiveRun.step lower) (ArchiveFits lower) {} as →
        Always (ArchiveRun.step lower) (Readable lower) {} as) := by
  have hstart : Unchanged {} := fun r hr => absurd hr List.not_mem_nil
  refine ⟨always_of_invariant (fun s a s' h hs => unchanged_step h hs) as hstart, fun hfits => ?_⟩
  have hinv := always_of_guarded
    (Q := fun s => Unchanged s ∧ ∀ r ∈ s.returned, Registered lower s.dirs r)
    (fun s a s' h hfits hs => ⟨unchanged_step h.1 hs, registered_step hfits h.2 hs⟩)
    ⟨hstart, fun r hr => absurd hr List.not_mem_nil⟩ hfits
  exact always_mono (fun s h => readable_of_registered h.1 h.2) hinv

end runs

namespace ArchiveRun

def oneLog : ArchiveTools Empty PyStr where
  reader := ⟨fun _ => [], fun _ => false, fun _ => []⟩
  rowNumber _ := 1
  path text := text
  fileName path := path
  read path := if path = ['/', 'l'] then some [104, 105] else none
  attemptFile _ := none
  attemptGlob _ := none
  listing := ["001-c0ffee-fix".toList]
  decode _ := some ['h', 'i']
  decodeReplacing _ := ['h', 'i']
  encode text := text.map fun c => UInt8.ofNat c.toNat
  redact text := text
  dumpsIndented _ := []

def engineAttempt (currentRun : ℕ) : ArchiveCall Empty where
  rows := [⟨[("commit", .text "c0ffee".toList), ("title", .text "fix".toList),
    ("logfile", .text ['/', 'l'])], by decide⟩]
  patchKeys := ["original_patch_path", "patch_path", "backported_patch_path"]
  result := .empty
  scope := .run
  runId := []
  currentRun

theorem attempts_of_two_runs_readable :
    Always (ArchiveRun.step PyStr.lower) Unchanged {}
        [(oneLog, engineAttempt 1), (oneLog, engineAttempt 2)] ∧
      Always (ArchiveRun.step PyStr.lower) (Readable PyStr.lower) {}
        [(oneLog, engineAttempt 1), (oneLog, engineAttempt 2)] :=
  ⟨(archive_append_only PyStr.lower [(oneLog, engineAttempt 1), (oneLog, engineAttempt 2)]).1,
    (archive_append_only PyStr.lower [(oneLog, engineAttempt 1), (oneLog, engineAttempt 2)]).2
      (by decide +kernel)⟩

/-- The log of a second attempt takes the place of the first one's in the case file. -/
theorem second_attempt_hides_first :
    ¬ ∀ as : List (ArchiveTools Empty PyStr × ArchiveCall Empty),
      Always (ArchiveRun.step PyStr.lower) Unchanged {} as ∧
        Always (ArchiveRun.step PyStr.lower) (Readable PyStr.lower) {} as := by
  intro h
  have hlast := always_last (h [(oneLog, engineAttempt 1), (oneLog, engineAttempt 1)]).2 rfl
  revert hlast
  decide +kernel

end ArchiveRun

end WittyService

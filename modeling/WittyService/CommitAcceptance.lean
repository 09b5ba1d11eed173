import Mathlib.Data.List.Dedup
import WittyService.CommitImport
import WittyService.SkillReconciliation

/-! What `validate_commit_entries` accepts: items that are entries of an SHA and a title of one
line, where entries with one commit have one title. It returns each entry once, where it stands
first. -/
namespace WittyService

open Utf8Text

def firstOccurrences {α : Type*} [DecidableEq α] (l : List α) : List α := l.reverse.dedup.reverse

section
variable {α : Type*} [DecidableEq α] {l : List α} {a : α}

theorem mem_firstOccurrences : a ∈ firstOccurrences l ↔ a ∈ l := by
  rw [firstOccurrences, List.mem_reverse, List.mem_dedup, List.mem_reverse]

theorem nodup_firstOccurrences (l : List α) : (firstOccurrences l).Nodup :=
  List.nodup_reverse.mpr (List.nodup_dedup l.reverse)

theorem firstOccurrences_append (l : List α) (a : α) :
    firstOccurrences (l ++ [a]) =
      if a ∈ l then firstOccurrences l else firstOccurrences l ++ [a] := by
  rw [firstOccurrences, List.reverse_append, List.reverse_singleton, List.singleton_append]
  split
  · next h => rw [List.dedup_cons_of_mem (List.mem_reverse.mpr h), firstOccurrences]
  · next h =>
    rw [List.dedup_cons_of_notMem fun hmem => h (List.mem_reverse.mp hmem), List.reverse_cons,
      firstOccurrences]

theorem firstOccurrences_of_nodup (h : l.Nodup) : firstOccurrences l = l := by
  rw [firstOccurrences, (List.nodup_reverse.mpr h).dedup, List.reverse_reverse]

theorem length_firstOccurrences_le (l : List α) : (firstOccurrences l).length ≤ l.length := by
  have hle := (List.dedup_sublist l.reverse).length_le
  rw [List.length_reverse] at hle
  rw [firstOccurrences, List.length_reverse]
  exact hle

end

namespace CommitImport

variable {tables : UnicodeTables} {item : ImportItem} {items : List ImportItem}
  {entry : CommitEntry} {s : Checking}

def membersOf : ImportItem → Option (List (CodePoints × JsonText.Value))
  | .value (.obj members) => some members
  | .numbered _ (.obj members) => some members
  | _ => none

def isEntry (commit title : CodePoints) : Bool := isSha commit && title ≠ [] && isSingleLine title

def entryOf (tables : UnicodeTables) (item : ImportItem) : Option CommitEntry :=
  (membersOf item).bind fun members =>
    let commit := stripped (ChannelCredentialStore.get members "commit")
    let title := stripped (ChannelCredentialStore.get members "commit_title")
    if isEntry commit title then some ⟨tables.lower commit, title⟩ else none

/-- Every item is an entry, and entries with one commit have one title. -/
def Accepted (tables : UnicodeTables) (items : List ImportItem) : Prop :=
  (∀ item ∈ items, (entryOf tables item).isSome) ∧
    ∀ entry ∈ items.filterMap (entryOf tables), ∀ other ∈ items.filterMap (entryOf tables),
      entry.commit = other.commit → entry.commitTitle = other.commitTitle

theorem entryErrors_eq_nil_iff {row : ℕ} {commit title : CodePoints} :
    entryErrors row commit title = [] ↔ isEntry commit title := by
  rw [entryErrors, List.append_eq_nil_iff, isEntry, Bool.and_eq_true, Bool.and_eq_true,
    decide_eq_true_eq, and_assoc]
  refine and_congr ?_ ?_
  · split
    · next h => exact iff_of_true rfl h
    · next h => exact iff_of_false (List.cons_ne_nil _ _) h
  · split
    · next h => exact iff_of_false (List.cons_ne_nil _ _) fun hne => hne.1 h
    · next h =>
      split
      · next hline => exact iff_of_true rfl ⟨h, hline⟩
      · next hline => exact iff_of_false (List.cons_ne_nil _ _) fun hne => hline hne.2

theorem checkItem_of_some (h : entryOf tables item = some entry) (index : ℕ) :
    ∃ row, s.checkItem tables index item = s.keep row entry := by
  obtain ⟨members, hmembers, hentry⟩ := Option.bind_eq_some_iff.mp h
  dsimp only at hentry
  split at hentry
  · next hisEntry =>
    obtain rfl := Option.some.inj hentry
    have hrow : ∀ row, s.checkEntry tables row members =
        s.keep row ⟨tables.lower (stripped (ChannelCredentialStore.get members "commit")),
          stripped (ChannelCredentialStore.get members "commit_title")⟩ := fun row =>
      if_pos (entryErrors_eq_nil_iff.mpr hisEntry)
    unfold membersOf at hmembers
    split at hmembers
    · obtain rfl := Option.some.inj hmembers
      exact ⟨index, hrow index⟩
    · next row _ =>
      obtain rfl := Option.some.inj hmembers
      exact ⟨row, hrow row⟩
    · cases hmembers
  · cases hentry

theorem checkItem_of_none (h : entryOf tables item = none) (index : ℕ) :
    ∃ errors, errors ≠ [] ∧
      s.checkItem tables index item = { s with errors := s.errors ++ errors } := by
  have hobject : ∀ members row, membersOf item = some members → ∃ errors, errors ≠ [] ∧
      s.checkEntry tables row members = { s with errors := s.errors ++ errors } := by
    intro members row hmembers
    rw [entryOf, hmembers, Option.bind_some] at h
    dsimp only at h
    split at h
    · cases h
    · next hisEntry =>
      have hne : entryErrors row (stripped (ChannelCredentialStore.get members "commit"))
          (stripped (ChannelCredentialStore.get members "commit_title")) ≠ [] := fun heq =>
        hisEntry (entryErrors_eq_nil_iff.mp heq)
      exact ⟨_, hne, if_neg hne⟩
  have hother : ∃ errors, errors ≠ [] ∧
      ({ s with errors := s.errors ++ [notAnEntry index] } : Checking) =
        { s with errors := s.errors ++ errors } := ⟨_, List.cons_ne_nil _ _, rfl⟩
  cases item with
  | value entry =>
    cases entry with
    | obj members => exact hobject members index rfl
    | null | bool b | num literal | str s | arr items => exact hother
  | numbered row entry =>
    cases entry with
    | obj members => exact hobject members row rfl
    | null | bool b | num literal | str s | arr items => exact hother

structure Checked (tables : UnicodeTables) (items : List ImportItem) (s : Checking) : Prop where
  aligned : ∀ commit title, (∃ row, s.firstForSha.get? commit = some (row, title)) ↔
    ⟨commit, title⟩ ∈ s.normalized
  errors : s.errors = [] ↔ Accepted tables items
  normalized : s.errors = [] → s.normalized = firstOccurrences (items.filterMap (entryOf tables))
  warnings : s.errors = [] → ((items.filterMap (entryOf tables)).map CommitEntry.commit).Nodup →
    s.warnings = []

theorem Checked.mem_normalized (h : Checked tables items s) (hs : s.errors = []) :
    entry ∈ s.normalized ↔ entry ∈ items.filterMap (entryOf tables) := by
  rw [h.normalized hs, mem_firstOccurrences]

theorem not_accepted_of_none (h : entryOf tables item = none) :
    ¬ Accepted tables (items ++ [item]) := by
  intro haccepted
  have hsome := haccepted.1 item (List.mem_append_right _ (List.mem_singleton_self item))
  rw [h] at hsome
  cases hsome

theorem entries_append (h : entryOf tables item = some entry) :
    (items ++ [item]).filterMap (entryOf tables) = items.filterMap (entryOf tables) ++ [entry] := by
  rw [List.filterMap_append, List.filterMap_cons_some h, List.filterMap_nil]

theorem accepted_append (h : entryOf tables item = some entry) :
    Accepted tables (items ++ [item]) ↔ Accepted tables items ∧
      ∀ other ∈ items.filterMap (entryOf tables), other.commit = entry.commit →
        other.commitTitle = entry.commitTitle := by
  unfold Accepted
  rw [entries_append h]
  simp only [List.forall_mem_append, List.forall_mem_singleton, h, Option.isSome_some, and_true]
  constructor
  · rintro ⟨hsome, hsame, hlast⟩
    exact ⟨⟨hsome, fun first hfirst => (hsame first hfirst).1⟩,
      fun other hother => (hsame other hother).2⟩
  · rintro ⟨⟨hsome, hsame⟩, hlast⟩
    exact ⟨hsome, fun first hfirst => ⟨hsame first hfirst, hlast first hfirst⟩,
      fun other hother hcommit => (hlast other hother hcommit.symm).symm, fun _ => trivial⟩

section

variable (h : Checked tables items s) (hitem : entryOf tables item = some entry) (row : ℕ)
include h hitem

theorem Checked.keep_new (hfirst : s.firstForSha.get? entry.commit = none) :
    Checked tables (items ++ [item]) (s.keep row entry) := by
  have hnone : ∀ other ∈ s.normalized, other.commit ≠ entry.commit := by
    intro other hother hcommit
    obtain ⟨row', hrow⟩ := (h.aligned other.commit other.commitTitle).mpr hother
    rw [hcommit, hfirst] at hrow
    cases hrow
  have hkeep : s.keep row entry =
      { s with
        firstForSha := s.firstForSha.set entry.commit (row, entry.commitTitle)
        normalized := s.normalized ++ [entry] } := by
    rw [Checking.keep, hfirst]
  rw [hkeep]
  refine ⟨fun commit title => ?_, ?_, fun hs => ?_, fun hs hnodup => ?_⟩
  · rw [OrderedDict.get?_set, List.mem_append, List.mem_singleton]
    split
    · next hcommit =>
      subst hcommit
      constructor
      · rintro ⟨row', hrow⟩
        obtain ⟨-, rfl⟩ := Prod.mk.inj (Option.some.inj hrow)
        exact .inr rfl
      · rintro (hmem | heq)
        · exact absurd rfl (hnone ⟨entry.commit, title⟩ hmem)
        · exact ⟨row, congrArg (fun e : CommitEntry => some (row, e.commitTitle)) heq.symm⟩
    · next hcommit =>
      rw [h.aligned commit title]
      exact (or_iff_left fun heq => hcommit (congrArg CommitEntry.commit heq)).symm
  · rw [accepted_append hitem, h.errors]
    refine (and_iff_left_of_imp fun haccepted other hother hcommit => ?_).symm
    exact absurd hcommit (hnone other ((h.mem_normalized (h.errors.mpr haccepted)).mpr hother))
  · have hnew : entry ∉ items.filterMap (entryOf tables) := fun hmem =>
      hnone entry ((h.mem_normalized hs).mpr hmem) rfl
    rw [entries_append hitem, firstOccurrences_append, if_neg hnew, ← h.normalized hs]
  · rw [entries_append hitem, List.map_append] at hnodup
    exact h.warnings hs (List.nodup_append.mp hnodup).1

theorem Checked.keep_again {first : ℕ × CodePoints}
    (hfirst : s.firstForSha.get? entry.commit = some first) :
    Checked tables (items ++ [item]) (s.keep row entry) := by
  have hmem := (h.aligned entry.commit first.2).mp ⟨first.1, hfirst⟩
  by_cases htitle : first.2 = entry.commitTitle
  · -- The same entry once more: nothing is added, and the commits are not distinct.
    have hagain : entry ∈ s.normalized := by rwa [htitle] at hmem
    have hkeep : ∃ warnings, s.keep row entry = { s with warnings } := by
      rw [Checking.keep, hfirst]
      exact ⟨_, if_pos htitle⟩
    obtain ⟨warnings, hkeep⟩ := hkeep
    rw [hkeep]
    refine ⟨h.aligned, ?_, fun hs => ?_, fun hs hnodup => ?_⟩
    · rw [accepted_append hitem, h.errors]
      refine (and_iff_left_of_imp fun haccepted other hother hcommit => ?_).symm
      have hentry := (h.mem_normalized (h.errors.mpr haccepted)).mp hagain
      exact haccepted.2 other hother entry hentry hcommit
    · rw [entries_append hitem, firstOccurrences_append, if_pos ((h.mem_normalized hs).mp hagain)]
      exact h.normalized hs
    · rw [entries_append hitem, List.map_append, List.map_singleton, List.nodup_append] at hnodup
      have hentry := (h.mem_normalized hs).mp hagain
      exact absurd rfl (hnodup.2.2 entry.commit (List.mem_map_of_mem hentry) entry.commit
        (List.mem_singleton_self _))
  · have hkeep : ∃ error, s.keep row entry = { s with errors := s.errors ++ [error] } := by
      rw [Checking.keep, hfirst]
      exact ⟨_, if_neg htitle⟩
    obtain ⟨error, hkeep⟩ := hkeep
    have hne : s.errors ++ [error] ≠ [] := List.append_ne_nil_of_right_ne_nil _
      (List.cons_ne_nil _ _)
    rw [hkeep]
    refine ⟨h.aligned, iff_of_false hne fun haccepted => ?_, fun hs => absurd hs hne,
      fun hs => absurd hs hne⟩
    obtain ⟨hbefore, hagree⟩ := (accepted_append hitem).mp haccepted
    exact htitle (hagree _ ((h.mem_normalized (h.errors.mpr hbefore)).mp hmem) rfl)

end

theorem Checked.step (h : Checked tables items s) (index : ℕ) (item : ImportItem) :
    Checked tables (items ++ [item]) (s.checkItem tables index item) := by
  cases hitem : entryOf tables item with
  | none =>
    obtain ⟨errors, hne, heq⟩ := checkItem_of_none (s := s) hitem index
    have happend : s.errors ++ errors ≠ [] := List.append_ne_nil_of_right_ne_nil _ hne
    rw [heq]
    exact ⟨h.aligned, iff_of_false happend (not_accepted_of_none hitem), fun hs =>
      absurd hs happend, fun hs => absurd hs happend⟩
  | some entry =>
    obtain ⟨row, heq⟩ := checkItem_of_some (s := s) hitem index
    rw [heq]
    cases hfirst : s.firstForSha.get? entry.commit with
    | none => exact h.keep_new hitem row hfirst
    | some first => exact h.keep_again hitem row hfirst

theorem checked_check (tables : UnicodeTables) (items : List ImportItem) :
    Checked tables items (check tables items) := by
  induction items using List.reverseRecOn with
  | nil =>
    refine ⟨fun commit title => ?_, iff_of_true rfl ?_, fun _ => rfl, fun _ _ => rfl⟩
    · exact iff_of_false (fun ⟨row, hrow⟩ => by cases hrow) List.not_mem_nil
    · exact ⟨fun item hitem => absurd hitem List.not_mem_nil,
        fun entry hentry => absurd hentry List.not_mem_nil⟩
  | append_singleton items item ih =>
    have hcheck : check tables (items ++ [item]) =
        (check tables items).checkItem tables (1 + items.length) item := by
      rw [check, List.zipIdx_append, List.foldl_append]
      rfl
    rw [hcheck]
    exact ih.step _ item

/-- The items are neither too many nor none, and accepted. -/
structure Importable (tables : UnicodeTables) (items : List ImportItem) : Prop where
  length_le : items.length ≤ MAX_COMMIT_IMPORT_ENTRIES
  ne_nil : items ≠ []
  accepted : Accepted tables items

def importedEntries (tables : UnicodeTables) (items : List ImportItem) : List CommitEntry :=
  firstOccurrences (items.filterMap (entryOf tables))

theorem mem_importedEntries :
    entry ∈ importedEntries tables items ↔ entry ∈ items.filterMap (entryOf tables) :=
  mem_firstOccurrences

theorem length_importedEntries_le (tables : UnicodeTables) (items : List ImportItem) :
    (importedEntries tables items).length ≤ items.length :=
  (length_firstOccurrences_le _).trans (List.length_filterMap_le _ _)

theorem Importable.importedEntries_ne_nil (h : Importable tables items) :
    importedEntries tables items ≠ [] := by
  obtain ⟨item, hitem⟩ := List.exists_mem_of_ne_nil items h.ne_nil
  obtain ⟨entry, hentry⟩ := Option.isSome_iff_exists.mp (h.accepted.1 item hitem)
  exact List.ne_nil_of_mem (mem_importedEntries.mpr (List.mem_filterMap.mpr ⟨item, hitem, hentry⟩))

theorem Importable.nodup_commits (h : Importable tables items) :
    ((importedEntries tables items).map CommitEntry.commit).Nodup := by
  refine List.Nodup.map_on (fun first hfirst other hother hcommit => ?_)
    (nodup_firstOccurrences _)
  have htitle := h.accepted.2 first (mem_importedEntries.mp hfirst) other
    (mem_importedEntries.mp hother) hcommit
  cases first
  cases other
  cases hcommit
  cases htitle
  rfl

theorem Importable.validateCommitEntries_eq (h : Importable tables items) :
    validateCommitEntries tables items =
      (encode (serializeCommitEntries (importedEntries tables items))).map fun bytes =>
        if MAX_COMMIT_IMPORT_BYTES < bytes.length then
          { errors := [{ field := "entries", message := "提交清单不能超过 1 MiB。" }]
            warnings := (check tables items).warnings }
        else
          { entries := importedEntries tables items,
            warnings := (check tables items).warnings } := by
  have hchecked := checked_check tables items
  have herrors := hchecked.errors.mpr h.accepted
  have hnormalized : (check tables items).normalized = importedEntries tables items :=
    hchecked.normalized herrors
  have hlength : ¬ MAX_COMMIT_IMPORT_ENTRIES < items.length := Nat.not_lt.mpr h.length_le
  simp [validateCommitEntries, if_neg hlength, hnormalized, h.importedEntries_ne_nil, herrors]

theorem validateCommitEntries_of_not_importable (h : ¬ Importable tables items) :
    ∃ result, validateCommitEntries tables items = some result ∧ result.errors ≠ [] := by
  by_cases hlength : MAX_COMMIT_IMPORT_ENTRIES < items.length
  · exact ⟨_, if_pos hlength, List.cons_ne_nil _ _⟩
  · have hchecked := checked_check tables items
    by_cases herrors : (check tables items).errors = []
    · -- Only an empty list is left.
      have hnil : items = [] := by
        by_contra hne
        exact h ⟨Nat.not_lt.mp hlength, hne, hchecked.errors.mp herrors⟩
      subst hnil
      exact ⟨_, rfl, List.cons_ne_nil _ _⟩
    · simp only [validateCommitEntries, if_neg hlength, herrors, and_false, if_false]
      exact ⟨_, rfl, herrors⟩

end CommitImport

end WittyService

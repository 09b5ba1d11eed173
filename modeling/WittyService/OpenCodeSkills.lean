import WittyService.CodeLines
import WittyService.SkillRemoval

/-! `OpenCodeSkillService.list_skills` and `uninstall_skill`. A skill is listed under the name that
its SKILL.md gives and removed under the name of its directory. -/
namespace WittyService

open CodeLines TextParts Utf8Text

/-- What a directory has for its SKILL.md: the text that `read_text` gives, or bytes that are not
UTF-8, or a file that cannot be read. -/
inductive SkillMd where
  | missing
  | unreadable
  | undecodable
  | readable (contents : CodePoints)
  deriving DecidableEq

def SkillMd.isFile (skillMd : SkillMd) : Bool := skillMd ≠ .missing

/-- An entry of the skills directory, where a link counts as what it leads to. -/
inductive SkillEntry where
  | directory (skillMd : SkillMd)
  | linkedDirectory (skillMd : SkillMd)
  | file
  | linkedFile
  deriving DecidableEq

/-- The SKILL.md of an entry with `entry.is_dir()`. -/
def SkillEntry.skillMd : SkillEntry → Option SkillMd
  | .directory skillMd | .linkedDirectory skillMd => some skillMd
  | .file | .linkedFile => none

def SkillEntry.isSymlink : SkillEntry → Bool
  | .directory _ | .file => false
  | .linkedDirectory _ | .linkedFile => true

/-- The entries in the order of `sorted(skills_dir.iterdir())`. -/
structure SkillsDir where
  path : CodePoints
  entries : List (CodePoints × SkillEntry)
  sorted : (entries.map Prod.fst).Pairwise (· < ·)
  named : ∀ e ∈ entries, 0 ∉ e.1

structure SkillMetadata where
  name : Option CodePoints
  description : Option CodePoints

structure SkillRecord where
  name : CodePoints
  description : Option CodePoints
  filePath : Option CodePoints
  source : CodePoints
  deriving DecidableEq

/-- What the operating system answers a call: the names it does not look up, whether a path can be
deleted, and whether the command of wittyhub can be started. The command itself does nothing. -/
structure SkillDisk where
  refused : CodePoints → Bool
  removable : CodePoints → Bool
  lockRemovable : Bool
  commandStarts : Bool

inductive UninstallChannel where
  | localRemove
  | wittyhub
  deriving DecidableEq

namespace OpenCodeSkills

def isQuote (c : ℕ) : Bool := c = 34 || c = 39

/-- `(\w+)\s*:\s*(.+)` on a stripped line whose first group is the key. -/
def readField (key line : CodePoints) : Option CodePoints :=
  if key.isPrefixOf line then
    match (line.drop key.length).dropWhile RuntimeSkills.isSpace with
    | [] => none
    | c :: value =>
      if c = 58 ∧ value ≠ [] then some (TextTrim.trim isQuote (RuntimeSkills.strip value)) else none
  else none

/-- What stands between the first two `---` of a text that begins with one. -/
def frontmatter (contents : CodePoints) : Option CodePoints :=
  let stripped := contents.dropWhile RuntimeSkills.isSpace
  if (text "---").isPrefixOf stripped then
    (partition (text "---") (stripped.drop 3)).map Prod.fst
  else none

def metadataOf (key contents : CodePoints) : Option CodePoints :=
  (frontmatter contents).bind fun front =>
    ((splitlines front).filterMap fun line => readField key (RuntimeSkills.strip line)).getLast?

/-- `_parse_skill_md`, none where it raises. -/
def parseSkillMd : SkillMd → Option SkillMetadata
  | .missing | .unreadable => some ⟨none, none⟩
  | .undecodable => none
  | .readable contents =>
    some ⟨metadataOf (text "name") contents, metadataOf (text "description") contents⟩

def skillMdPath (path name : CodePoints) : CodePoints := path ++ 47 :: name ++ text "/SKILL.md"

/-- What `list_skills` reports of a directory. -/
def record (path name : CodePoints) (skillMd : SkillMd) : Option SkillRecord :=
  (parseSkillMd skillMd).map fun metadata => {
    name := (metadata.name.filter (· ≠ [])).getD name,
    description := metadata.description,
    filePath := if skillMd.isFile then some (skillMdPath path name) else none,
    source := text "opencode-filesystem" }

def listEntries (path : CodePoints) : List (CodePoints × SkillEntry) → Option (List SkillRecord)
  | [] => some []
  | (name, entry) :: rest =>
    match entry.skillMd with
    | none => listEntries path rest
    | some skillMd =>
      (record path name skillMd).bind fun r => (listEntries path rest).map (r :: ·)

/-- `list_skills`, none where it raises. -/
def listSkills (dir : SkillsDir) : Option (List SkillRecord) := listEntries dir.path dir.entries

def isLocalPath (path : CodePoints) : Bool :=
  let path := RuntimeSkills.strip path
  path.head? = some 47 || path.head? = some 126 || path.head? = some 46 || 92 ∈ path ||
    (47 ∈ path && !(text "http://").isPrefixOf path && !(text "https://").isPrefixOf path)

def isSymlink (dir : SkillsDir) (name : CodePoints) : Bool :=
  dir.entries.any fun e => e.1 = name && e.2.isSymlink

def isPresent (dir : SkillsDir) (name : CodePoints) : Bool := dir.entries.any fun e => e.1 = name

/-- What `_validate_path_under_skills_dir` says to a path in the directory. -/
inductive PathCheck where
  | raises
  | invalid
  | valid
  deriving DecidableEq

/-- A path with a null character is a `ValueError` too, from `resolve`. -/
def checkPath (disk : SkillDisk) (dir : SkillsDir) (name : CodePoints) : PathCheck :=
  if 0 ∈ name then .invalid
  else if disk.refused name then .raises
  else if isSymlink dir name then .invalid
  else .valid

def erase (dir : SkillsDir) (name : CodePoints) : SkillsDir where
  path := dir.path
  entries := dir.entries.filter fun e => e.1 ≠ name
  sorted := dir.sorted.sublist (List.filter_sublist.map Prod.fst)
  named e he := dir.named e (List.mem_of_mem_filter he)

/-- `if dst.exists(): _remove_path(dst)`, none where it raises. -/
def removeSkill (disk : SkillDisk) (dir : SkillsDir) (name : CodePoints) : Option SkillsDir :=
  if isPresent dir name then if disk.removable name then some (erase dir name) else none
  else some dir

def uninstallLocalSkill (disk : SkillDisk) (dir : SkillsDir) (name : CodePoints) :
    Option (SkillsDir × UninstallChannel) :=
  match checkPath disk dir name with
  | .raises | .invalid => none
  | .valid => (removeSkill disk dir name).map fun dir => (dir, .localRemove)

/-- A path that is not valid is only logged. The end is the removal of `skills-lock.json`. -/
def uninstallWittyhubSkill (disk : SkillDisk) (dir : SkillsDir) (name : CodePoints) :
    Option (SkillsDir × UninstallChannel) :=
  if disk.commandStarts then
    let cleaned := match checkPath disk dir name with
      | .raises => none
      | .invalid => some dir
      | .valid => removeSkill disk dir name
    cleaned.bind fun dir => if disk.lockRemovable then some (dir, .wittyhub) else none
  else none

/-- `uninstall_skill` with the directory it leaves, none where it raises. -/
def uninstallSkill (disk : SkillDisk) (dir : SkillsDir) (call : UninstallCall) :
    Option (SkillsDir × UninstallChannel) :=
  (SkillRemoval.normalizeSkillName call.skillName).bind fun name =>
    if (SkillRemoval.given call.sourcePath).any isLocalPath then uninstallLocalSkill disk dir name
    else uninstallWittyhubSkill disk dir name

/-- What a call that returns leaves of the directory: all but the name, or all of it because the
path is a link or nothing is there. -/
def Leaves (dir : SkillsDir) (name : CodePoints) (left : SkillsDir) : Prop :=
  (isSymlink dir name = false ∧ isPresent dir name = true ∧ left = erase dir name) ∨
    ((0 ∈ name ∨ isSymlink dir name = true ∨ isPresent dir name = false) ∧ left = dir)

/-- The entry is reported as the record. -/
def Reports (dir : SkillsDir) (e : CodePoints × SkillEntry) (r : SkillRecord) : Prop :=
  ∃ skillMd, e.2.skillMd = some skillMd ∧ record dir.path e.1 skillMd = some r

/-- The record is that of a directory with the stripped reported name, which is no link. -/
def NamedByDirectory (dir : SkillsDir) (r : SkillRecord) : Prop :=
  ∃ skillMd, (RuntimeSkills.strip r.name, SkillEntry.directory skillMd) ∈ dir.entries ∧
    record dir.path (RuntimeSkills.strip r.name) skillMd = some r

section

variable {disk : SkillDisk} {dir dir' : SkillsDir} {call : UninstallCall} {name : CodePoints}
  {records : List SkillRecord} {r : SkillRecord} {e e' : CodePoints × SkillEntry}
  {channel : UninstallChannel}

variable {path : CodePoints}

theorem listEntries_mem {entries : List (CodePoints × SkillEntry)}
    (h : listEntries path entries = some records) :
    r ∈ records ↔ ∃ e ∈ entries, ∃ skillMd, e.2.skillMd = some skillMd ∧
      record path e.1 skillMd = some r := by
  induction entries generalizing records with
  | nil =>
    cases h
    simp
  | cons e entries ih =>
    obtain ⟨name, entry⟩ := e
    rw [listEntries] at h
    simp only [List.mem_cons, exists_eq_or_imp]
    cases hentry : entry.skillMd with
    | none =>
      rw [hentry] at h
      simp [ih h]
    | some skillMd =>
      rw [hentry] at h
      obtain ⟨r', hr', h⟩ := Option.bind_eq_some_iff.mp h
      obtain ⟨records', hrecords', rfl⟩ := Option.map_eq_some_iff.mp h
      rw [List.mem_cons, ih hrecords']
      simp only [Option.some.injEq, exists_eq_left', hr']
      rw [eq_comm]

theorem mem_records (h : listSkills dir = some records) :
    r ∈ records ↔ ∃ e ∈ dir.entries, Reports dir e r := listEntries_mem h

theorem listEntries_sublist {l l' : List (CodePoints × SkillEntry)}
    (hl : l.Sublist l') (h : listEntries path l' = some records) :
    ∃ records', listEntries path l = some records' := by
  induction hl generalizing records with
  | slnil => exact ⟨_, h⟩
  | cons e hl ih =>
    rw [listEntries] at h
    cases hentry : e.2.skillMd with
    | none =>
      rw [hentry] at h
      exact ih h
    | some skillMd =>
      rw [hentry] at h
      obtain ⟨r', hr', h⟩ := Option.bind_eq_some_iff.mp h
      obtain ⟨records', hrecords', -⟩ := Option.map_eq_some_iff.mp h
      exact ih hrecords'
  | cons_cons e hl ih =>
    rw [listEntries] at h ⊢
    cases hentry : e.2.skillMd with
    | none =>
      rw [hentry] at h
      exact ih h
    | some skillMd =>
      rw [hentry] at h
      obtain ⟨r', hr', h⟩ := Option.bind_eq_some_iff.mp h
      obtain ⟨records', hrecords', -⟩ := Option.map_eq_some_iff.mp h
      obtain ⟨rest, hrest⟩ := ih hrecords'
      refine ⟨r' :: rest, ?_⟩
      dsimp only
      rw [hr', Option.bind_some, hrest, Option.map_some]

theorem record_injective {name name' : CodePoints} {skillMd skillMd' : SkillMd}
    (h : record path name skillMd = some r) (h' : record path name' skillMd' = some r) :
    name = name' := by
  obtain ⟨metadata, hmetadata, heq⟩ := Option.map_eq_some_iff.mp h
  obtain ⟨metadata', hmetadata', heq'⟩ := Option.map_eq_some_iff.mp h'
  have hrecord := heq.trans heq'.symm
  have hpath := congrArg SkillRecord.filePath hrecord
  have hname := congrArg SkillRecord.name hrecord
  by_cases hfile : skillMd.isFile = true
  · by_cases hfile' : skillMd'.isFile = true
    · rw [if_pos hfile, if_pos hfile', Option.some.injEq, skillMdPath, skillMdPath] at hpath
      have htail := List.append_cancel_right hpath
      exact (List.cons.inj (List.append_cancel_left htail)).2
    · rw [if_pos hfile, if_neg hfile'] at hpath
      cases hpath
  · by_cases hfile' : skillMd'.isFile = true
    · rw [if_neg hfile, if_pos hfile'] at hpath
      cases hpath
    · -- without SKILL.md the directory gives the name
      have hmissing : skillMd = .missing := by simpa [SkillMd.isFile] using hfile
      have hmissing' : skillMd' = .missing := by simpa [SkillMd.isFile] using hfile'
      subst hmissing hmissing'
      cases hmetadata
      cases hmetadata'
      exact hname

theorem entry_unique (he : e ∈ dir.entries) (he' : e' ∈ dir.entries) (h : e.1 = e'.1) :
    e = e' := by
  have hnodup : (dir.entries.map Prod.fst).Nodup := dir.sorted.imp fun hlt => ne_of_lt hlt
  exact List.inj_on_of_nodup_map hnodup he he' h

theorem isSymlink_of_mem (he : e ∈ dir.entries) : isSymlink dir e.1 = e.2.isSymlink := by
  cases hlink : e.2.isSymlink with
  | true =>
    rw [isSymlink, List.any_eq_true]
    exact ⟨e, he, by simp [hlink]⟩
  | false =>
    rw [isSymlink, List.any_eq_false]
    intro e' he' h
    rw [Bool.and_eq_true, decide_eq_true_eq] at h
    rw [entry_unique he' he h.1, hlink] at h
    exact Bool.false_ne_true h.2

theorem removeSkill_cases (h : removeSkill disk dir name = some dir') :
    (isPresent dir name = true ∧ dir' = erase dir name) ∨
      (isPresent dir name = false ∧ dir' = dir) := by
  unfold removeSkill at h
  split_ifs at h with hpresent hremovable
  · exact Or.inl ⟨hpresent, (Option.some.inj h).symm⟩
  · exact Or.inr ⟨Bool.eq_false_iff.mpr hpresent, (Option.some.inj h).symm⟩

theorem uninstallSkill_leaves (h : uninstallSkill disk dir call = some (dir', channel)) :
    Leaves dir (RuntimeSkills.strip call.skillName) dir' := by
  obtain ⟨name, hname, h⟩ := Option.bind_eq_some_iff.mp h
  have hstrip : RuntimeSkills.strip call.skillName = name := by
    unfold SkillRemoval.normalizeSkillName at hname
    dsimp only at hname
    split_ifs at hname
    exact Option.some.inj hname
  rw [hstrip]
  have hvalid : checkPath disk dir name = .valid → ∀ {left}, removeSkill disk dir name = some left →
      Leaves dir name left := by
    intro hcheck left hleft
    have hlink : isSymlink dir name = false := by
      unfold checkPath at hcheck
      split_ifs at hcheck with hnull hrefused hlink
      exact Bool.eq_false_iff.mpr hlink
    rcases removeSkill_cases hleft with ⟨hpresent, rfl⟩ | ⟨hpresent, rfl⟩
    · exact Or.inl ⟨hlink, hpresent, rfl⟩
    · exact Or.inr ⟨Or.inr (Or.inr hpresent), rfl⟩
  have hhub : ∀ {left}, (match checkPath disk dir name with
      | .raises => none
      | .invalid => some dir
      | .valid => removeSkill disk dir name) = some left →
      Leaves dir name left := by
    intro left hleft
    cases hcheck : checkPath disk dir name with
    | raises =>
      rw [hcheck] at hleft
      cases hleft
    | invalid =>
      rw [hcheck] at hleft
      cases hleft
      unfold checkPath at hcheck
      split_ifs at hcheck with hnull hrefused hlink
      · exact Or.inr ⟨Or.inl hnull, rfl⟩
      · exact Or.inr ⟨Or.inr (Or.inl hlink), rfl⟩
    | valid =>
      rw [hcheck] at hleft
      exact hvalid hcheck hleft
  split_ifs at h
  · unfold uninstallLocalSkill at h
    cases hcheck : checkPath disk dir name with
    | raises | invalid =>
      rw [hcheck] at h
      cases h
    | valid =>
      rw [hcheck] at h
      obtain ⟨left, hleft, heq⟩ := Option.map_eq_some_iff.mp h
      cases heq
      exact hvalid hcheck hleft
  · unfold uninstallWittyhubSkill at h
    by_cases hstarts : disk.commandStarts = true
    · rw [if_pos hstarts] at h
      obtain ⟨left, hleft, hlock⟩ := Option.bind_eq_some_iff.mp h
      by_cases hremoved : disk.lockRemovable = true
      · rw [if_pos hremoved] at hlock
        cases hlock
        exact hhub hleft
      · rw [if_neg hremoved] at hlock
        cases hlock
    · rw [if_neg hstarts] at h
      cases h

end

/-! A directory of one skill, with and without a title in its SKILL.md. -/

def oneSkill (skillMd : SkillMd) : SkillsDir where
  path := text "/w/.agents/skills"
  entries := [(text "pdf-tools", .directory skillMd)]
  sorted := List.pairwise_singleton _ _
  named := List.forall_mem_singleton.mpr (show 0 ∉ text "pdf-tools" by decide)

def titled : SkillMd := .readable (text "---\nname: PDF Tools\n---\n")

def freeDisk : SkillDisk where
  refused _ := false
  removable _ := true
  lockRemovable := true
  commandStarts := true

def uninstallCall (name : CodePoints) : UninstallCall where
  agentId := none
  skillName := name
  sourceType := none
  sourcePath := none
  runtimeSource := none

def untitledRecord : SkillRecord where
  name := text "pdf-tools"
  description := none
  filePath := none
  source := text "opencode-filesystem"

end OpenCodeSkills

end WittyService

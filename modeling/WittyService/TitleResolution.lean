import WittyService.OrderedDict
import WittyService.TextParts
import WittyService.VisibleText

/-! `resolve_commits_by_title`: the commits of a branch are read from the output of `git log`, and
each title is looked for among their subjects. -/
namespace WittyService

/-- What Python does with characters: `str.casefold` of one, and `repr` of a list of texts. -/
structure PyCharacters where
  casefold : Char → PyStr
  casefold_ne_nil : ∀ c, casefold c ≠ []
  repr : List PyStr → PyStr

def PyCharacters.fold (py : PyCharacters) (text : PyStr) : PyStr := text.flatMap py.casefold

structure CommitTitleResolution where
  commit : Option PyStr
  error : Option PyStr := none
  deriving DecidableEq

structure CompletedProcess where
  returncode : Int
  stdout : PyStr
  stderr : PyStr

namespace BackportGitClient

/-- The letters that `str.splitlines` ends a line at. -/
def isLineEnd (c : Char) : Bool :=
  c.val ∈ [0x0a, 0x0b, 0x0c, 0x0d, 0x1c, 0x1d, 0x1e, 0x85, 0x2028, 0x2029]

def splitlines : PyStr → List PyStr
  | [] => []
  | [c] => if isLineEnd c then [[]] else [[c]]
  | c :: c' :: rest =>
    if c = '\r' ∧ c' = '\n' then [] :: splitlines rest
    else if isLineEnd c then [] :: splitlines (c' :: rest)
    else match splitlines (c' :: rest) with
      | [] => [[c]]
      | line :: others => (c :: line) :: others

def translateNewlines : PyStr → PyStr
  | [] => []
  | [c] => if c = '\r' then ['\n'] else [c]
  | c :: c' :: rest =>
    if c = '\r' then
      if c' = '\n' then '\n' :: translateNewlines rest else '\n' :: translateNewlines (c' :: rest)
    else c :: translateNewlines (c' :: rest)

def unitSeparator : Char := '\x1f'

/-- A commit of the log: its SHA, its subject and the subject with its case folded. -/
structure LoggedCommit where
  sha : PyStr
  subject : PyStr
  normalizedSubject : PyStr
  deriving DecidableEq

def loggedCommit (py : PyCharacters) (line : PyStr) : Option LoggedCommit :=
  if unitSeparator ∈ line then
    let sha := line.takeWhile (· ≠ unitSeparator)
    let normalizedSubject := PyStr.strip (line.dropWhile (· ≠ unitSeparator)).tail
    some ⟨PyStr.strip sha, normalizedSubject, py.fold normalizedSubject⟩
  else none

def loggedCommits (py : PyCharacters) (stdout : PyStr) : List LoggedCommit :=
  (splitlines stdout).filterMap (loggedCommit py)

def resolveTitle (py : PyCharacters) (subjects : List LoggedCommit) (title : PyStr) :
    CommitTitleResolution :=
  let normalizedTitle := py.fold title
  match subjects.filter fun s => s.subject = title with
  | first :: _ => { commit := some first.sha }
  | [] =>
    match subjects.filter fun s => s.normalizedSubject = normalizedTitle with
    | first :: _ => { commit := some first.sha }
    | [] =>
      match subjects.filter fun s => normalizedTitle <:+: s.normalizedSubject with
      | [only] => { commit := some only.sha }
      | [] =>
        { commit := none
          error := some ("无法根据 commit_title 找到提交：".toList ++ title) }
      | containsMatches =>
        let candidates := (containsMatches.take 5).map fun s => s.sha ++ ':' :: s.subject
        { commit := none
          error := some ("commit_title 包含匹配到多个候选：".toList ++ title ++
            "，candidates=".toList ++ py.repr candidates) }

/-- `ref`. -/
def logRef (sourceBranch : PyStr) : PyStr :=
  if PyStr.strip sourceBranch = [] then "HEAD".toList else PyStr.strip sourceBranch

/-- `queries` is the set of the stripped titles, in the order of its iteration. -/
def IsQueries (titles queries : List PyStr) : Prop :=
  queries.Nodup ∧ ∀ query, query ∈ queries ↔ ∃ title ∈ titles,
    PyStr.strip title = query ∧ query ≠ []

/-- `resolve_commits_by_title` with what `git log` leaves; an error is a `RuntimeError`. -/
def resolveCommitsByTitle (py : PyCharacters) (sourceBranch : PyStr) (result : CompletedProcess)
    (queries : List PyStr) : Except PyStr (OrderedDict PyStr CommitTitleResolution) :=
  if result.returncode ≠ 0 then
    let detail := if PyStr.strip result.stderr = [] then PyStr.strip result.stdout
      else PyStr.strip result.stderr
    .error ("源仓库无法读取分支 ".toList ++ logRef sourceBranch ++ ": ".toList ++ detail)
  else
    let subjects := loggedCommits py result.stdout
    .ok (queries.foldl (fun resolutions title =>
      resolutions.set title (resolveTitle py subjects title)) .empty)

end BackportGitClient

/-- A commit as `git log` shows it: a subject is one line. -/
structure GitCommit where
  sha : PyStr
  subject : PyStr
  sha_ne_nil : sha ≠ []
  sha_digits : ∀ c ∈ sha, c ∈ "0123456789abcdef".toList
  subject_line : '\n' ∉ subject

structure GitHistory where
  commits : List GitCommit
  distinct : (commits.map GitCommit.sha).Nodup

/-- `git log --format=%H%x1f%s`. -/
def gitLog (commits : List GitCommit) : PyStr :=
  commits.flatMap fun c => c.sha ++ BackportGitClient.unitSeparator :: c.subject ++ ['\n']

/-! Which commits a title is resolved to. The log is text, and `splitlines` ends its lines at more
letters than git does: a subject is found when no such letter stands before its last visible one. -/

namespace BackportGitClient

variable {py : PyCharacters} {c : GitCommit} {commits : List GitCommit} {title : PyStr}

variable {x : Char} {text part : PyStr} {l : LoggedCommit} {subjects : List LoggedCommit}

theorem splitlines_cons (h : x ≠ '\r') (text : PyStr) :
    splitlines (x :: text) =
      if isLineEnd x then [] :: splitlines text
      else (x :: (splitlines text).headD []) :: (splitlines text).tail := by
  cases text with
  | nil => simp [splitlines]
  | cons y rest =>
    rw [splitlines, if_neg fun heq => h heq.1]
    split
    · rfl
    · cases splitlines (y :: rest) with
      | nil | cons line others => rfl

def SameLines (lines parts : List PyStr) : Prop :=
  lines.headD [] = parts.headD [] ∧ lines.tail.filter (· ≠ []) = parts.tail.filter (· ≠ [])

theorem filter_eq_headD_append (lines : List PyStr) :
    lines.filter (· ≠ []) = [lines.headD []].filter (· ≠ []) ++ lines.tail.filter (· ≠ []) := by
  cases lines with
  | nil => rfl
  | cons line others => rw [← List.filter_append, List.headD_cons, List.tail_cons]; rfl

theorem SameLines.filter_eq {lines parts : List PyStr} (h : SameLines lines parts) :
    lines.filter (· ≠ []) = parts.filter (· ≠ []) := by
  rw [filter_eq_headD_append lines, filter_eq_headD_append parts, h.1, h.2]

theorem SameLines.cons {text' : PyStr} (hx : x ≠ '\r')
    (h : SameLines (splitlines text) (text'.splitOnP isLineEnd)) :
    SameLines (splitlines (x :: text)) ((x :: text').splitOnP isLineEnd) := by
  rw [splitlines_cons hx, List.splitOnP_cons_eq_if_modifyHead]
  split
  · exact ⟨rfl, h.filter_eq⟩
  · obtain ⟨part, parts, hparts⟩ :=
      List.exists_cons_of_ne_nil (List.splitOnP_ne_nil isLineEnd text')
    rw [hparts] at h ⊢
    exact ⟨congrArg (x :: ·) h.1, h.2⟩

theorem sameLines_translateNewlines (text : PyStr) :
    SameLines (splitlines (translateNewlines text)) (text.splitOnP isLineEnd) := by
  have hlf : '\n' ≠ '\r' := by decide
  have hcr : ∀ text : PyStr, ('\r' :: text).splitOnP isLineEnd = [] :: text.splitOnP isLineEnd :=
    fun text => by rw [List.splitOnP_cons_eq_if_modifyHead, if_pos (by decide)]
  have hend : ∀ text : PyStr, splitlines ('\n' :: text) = [] :: splitlines text := fun text => by
    rw [splitlines_cons hlf, if_pos (by decide)]
  induction text using translateNewlines.induct with
  | case1 => exact ⟨rfl, rfl⟩
  | case2 => exact ⟨by decide, by decide⟩
  | case3 x hx =>
    rw [translateNewlines, if_neg hx]
    exact SameLines.cons hx ⟨rfl, rfl⟩
  | case4 rest ih =>
    -- A carriage return and a line feed are one end, and two separators.
    rw [translateNewlines, if_pos rfl, if_pos rfl, hend, hcr]
    refine ⟨rfl, ?_⟩
    rw [List.splitOnP_cons_eq_if_modifyHead, if_pos (by decide)]
    exact ih.filter_eq
  | case5 y rest hy ih =>
    rw [translateNewlines, if_pos rfl, if_neg hy, hend, hcr]
    exact ⟨rfl, ih.filter_eq⟩
  | case6 x y rest hx ih =>
    rw [translateNewlines, if_neg hx]
    exact SameLines.cons hx ih

theorem loggedCommit_nil : loggedCommit py [] = none := rfl

theorem loggedCommits_translateNewlines (text : PyStr) :
    loggedCommits py (translateNewlines text) =
      (text.splitOnP isLineEnd).filterMap (loggedCommit py) := by
  have hfilter : ∀ lines : List PyStr, lines.filterMap (loggedCommit py) =
      (lines.filter (· ≠ [])).filterMap (loggedCommit py) := by
    intro lines
    induction lines with
    | nil => rfl
    | cons line lines ih =>
      by_cases hline : line = []
      · rw [hline, List.filterMap_cons_none loggedCommit_nil, List.filter_cons_of_neg (by simp), ih]
      · rw [List.filter_cons_of_pos (by simpa using hline), List.filterMap_cons, ih,
          List.filterMap_cons]
  rw [loggedCommits, hfilter, (sameLines_translateNewlines text).filter_eq, ← hfilter]

theorem loggedCommit_append {front : PyStr} (h : unitSeparator ∉ front) (rest : PyStr) :
    loggedCommit py (front ++ unitSeparator :: rest) =
      some ⟨PyStr.strip front, PyStr.strip rest, py.fold (PyStr.strip rest)⟩ := by
  have hkept : ∀ x ∈ front, decide (x ≠ unitSeparator) = true := fun x hx =>
    decide_eq_true fun heq => h (heq ▸ hx)
  have htake : (front ++ unitSeparator :: rest).takeWhile (· ≠ unitSeparator) = front := by
    rw [List.takeWhile_append_of_pos hkept]
    simp
  have hdrop : (front ++ unitSeparator :: rest).dropWhile (· ≠ unitSeparator) =
      unitSeparator :: rest := by
    rw [List.dropWhile_append_of_pos hkept]
    simp
  rw [loggedCommit, if_pos (List.mem_append_right front List.mem_cons_self), htake, hdrop,
    List.tail_cons]

theorem eq_append_of_loggedCommit {line : PyStr}
    (h : loggedCommit py line = some l) : ∃ front rest, line = front ++ unitSeparator :: rest ∧
      l = ⟨PyStr.strip front, PyStr.strip rest, py.fold (PyStr.strip rest)⟩ := by
  have hmem : unitSeparator ∈ line := by
    by_contra hnot
    rw [loggedCommit, if_neg hnot] at h
    cases h
  obtain ⟨front, rest, rfl, hfront⟩ := List.eq_append_cons_of_mem hmem
  rw [loggedCommit_append hfront] at h
  exact ⟨front, rest, rfl, (Option.some.inj h).symm⟩

def logLine (c : GitCommit) : PyStr := c.sha ++ unitSeparator :: c.subject

def readLine (py : PyCharacters) (c : GitCommit) : List LoggedCommit :=
  ((logLine c).splitOnP isLineEnd).filterMap (loggedCommit py)

theorem loggedCommits_gitLog (py : PyCharacters) (commits : List GitCommit) :
    loggedCommits py (translateNewlines (gitLog commits)) = commits.flatMap (readLine py) := by
  rw [loggedCommits_translateNewlines]
  induction commits with
  | nil => rfl
  | cons c commits ih =>
    have hcons : gitLog (c :: commits) = logLine c ++ '\n' :: gitLog commits := by
      rw [gitLog, List.flatMap_cons, ← gitLog, logLine, List.append_assoc, List.append_assoc,
        List.cons_append, List.append_assoc]
      rfl
    rw [hcons, List.splitOnP_append_cons _ _ (by decide), List.filterMap_append, ih,
      List.flatMap_cons, readLine]

theorem lineEnd_isSpace (h : isLineEnd x) : pyIsSpace x := by
  have hall : ([0x0a, 0x0b, 0x0c, 0x0d, 0x1c, 0x1d, 0x1e, 0x85, 0x2028, 0x2029] : List UInt32).all
      (fun v => decide (v ∈ ([0x09, 0x0a, 0x0b, 0x0c, 0x0d, 0x1c, 0x1d, 0x1e, 0x1f, 0x20, 0x85,
        0xa0,
        0x1680, 0x2000, 0x2001, 0x2002, 0x2003, 0x2004, 0x2005, 0x2006, 0x2007, 0x2008, 0x2009,
        0x200a, 0x2028, 0x2029, 0x202f, 0x205f, 0x3000] : List UInt32))) = true := by decide
  rw [isLineEnd, decide_eq_true_eq] at h
  rw [pyIsSpace, decide_eq_true_eq]
  exact of_decide_eq_true (List.all_eq_true.mp hall x.val h)

theorem sha_facts (c : GitCommit) : ∀ x ∈ c.sha, isLineEnd x = false ∧ pyIsSpace x = false ∧
    x ≠ unitSeparator := by
  have hall : "0123456789abcdef".toList.all (fun x => decide (isLineEnd x = false ∧
      pyIsSpace x = false ∧ x ≠ unitSeparator)) = true := by decide
  intro x hx
  exact of_decide_eq_true (List.all_eq_true.mp hall x (c.sha_digits x hx))

theorem strip_sha (c : GitCommit) : PyStr.strip c.sha = c.sha := by
  have hleft : c.sha.dropWhile pyIsSpace = c.sha := by
    refine List.dropWhile_eq_self_iff.mpr fun hpos => ?_
    rw [(sha_facts c _ (List.getElem_mem hpos)).2.1]
    exact Bool.false_ne_true
  rw [PyStr.strip, PyStr.lstrip, hleft]
  refine List.rdropWhile_eq_self_iff.mpr fun hne => ?_
  rw [(sha_facts c _ (List.getLast_mem hne)).2.1]
  exact Bool.false_ne_true

/-- The line of a commit gives the commit with its subject up to the first line end, and what the
rest of the subject looks like. -/
theorem exists_readLine (py : PyCharacters) (c : GitCommit) : ∃ first others,
    c.subject.splitOnP isLineEnd = first :: others ∧
      readLine py c = ⟨c.sha, PyStr.strip first, py.fold (PyStr.strip first)⟩ ::
        others.filterMap (loggedCommit py) := by
  obtain ⟨first, others, heq⟩ :=
    List.exists_cons_of_ne_nil (List.splitOnP_ne_nil isLineEnd c.subject)
  refine ⟨first, others, heq, ?_⟩
  have hfront : ∀ x ∈ c.sha ++ [unitSeparator], isLineEnd x = false := by
    intro x hx
    obtain hx | hx := List.mem_append.mp hx
    · exact (sha_facts c x hx).1
    · rw [List.mem_singleton.mp hx]
      decide
  have hline : logLine c = (c.sha ++ [unitSeparator]) ++ c.subject := by
    rw [logLine, List.append_assoc, List.singleton_append]
  have hsha : unitSeparator ∉ c.sha := fun hmem => (sha_facts c _ hmem).2.2 rfl
  rw [readLine, hline, TextParts.splitOnP_append_of_forall hfront, heq, List.modifyHead_cons,
    List.append_assoc, List.singleton_append,
    List.filterMap_cons_some (loggedCommit_append hsha first), strip_sha]

/-- No line end stands before the last visible letter. -/
def Survives (c : GitCommit) : Prop := ∀ x ∈ PyStr.rstrip c.subject, isLineEnd x = false

instance (c : GitCommit) : Decidable (Survives c) := inferInstanceAs (Decidable (∀ x ∈ _, _))

theorem readLine_of_survives (py : PyCharacters) (h : Survives c) : ∃ blanks,
    readLine py c = ⟨c.sha, PyStr.strip c.subject, py.fold (PyStr.strip c.subject)⟩ :: blanks ∧
      ∀ blank ∈ blanks, blank = ⟨[], [], []⟩ := by
  obtain ⟨first, others, hparts, hread⟩ := exists_readLine py c
  have hsubject : c.subject = PyStr.rstrip c.subject ++ c.subject.rtakeWhile pyIsSpace :=
    List.rdropWhile_append_rtakeWhile.symm
  have htail : ∀ x ∈ c.subject.rtakeWhile pyIsSpace, pyIsSpace x := fun x hx =>
    List.mem_rtakeWhile_imp hx
  obtain ⟨first', others', hparts'⟩ := List.exists_cons_of_ne_nil
    (List.splitOnP_ne_nil isLineEnd (c.subject.rtakeWhile pyIsSpace))
  have hsplit : c.subject.splitOnP isLineEnd = (PyStr.rstrip c.subject ++ first') :: others' := by
    conv_lhs => rw [hsubject]
    rw [TextParts.splitOnP_append_of_forall h, hparts', List.modifyHead_cons]
  obtain ⟨rfl, rfl⟩ := List.cons.inj (hparts.symm.trans hsplit)
  -- Every part of the white space at the end is white space.
  have hspace : ∀ part ∈ first' :: others, ∀ x ∈ part, pyIsSpace x := fun part hpart x hx =>
    htail x ((TextParts.infix_of_mem_splitOnP (hparts' ▸ hpart)).subset hx)
  have hstrip : PyStr.strip (PyStr.rstrip c.subject ++ first') = PyStr.strip c.subject := by
    have hfirst := TextTrim.trim_append_of_all (t := PyStr.rstrip c.subject)
      (hspace first' List.mem_cons_self)
    have hall := TextTrim.trim_append_of_all (t := PyStr.rstrip c.subject) htail
    rw [← hsubject] at hall
    exact hfirst.trans hall.symm
  refine ⟨_, hstrip ▸ hread, fun blank hblank => ?_⟩
  obtain ⟨part, hpart, hblank⟩ := List.mem_filterMap.mp hblank
  obtain ⟨front, rest, rfl, rfl⟩ := eq_append_of_loggedCommit hblank
  have hpart := hspace _ (List.mem_cons_of_mem _ hpart)
  have hfront : PyStr.strip front = [] :=
    TextTrim.trim_eq_nil_iff.mpr fun x hx => hpart x (List.mem_append_left _ hx)
  have hrest : PyStr.strip rest = [] := TextTrim.trim_eq_nil_iff.mpr fun x hx =>
    hpart x (List.mem_append_right _ (List.mem_cons_of_mem _ hx))
  rw [hfront, hrest]
  rfl

theorem length_le_fold (py : PyCharacters) (text : PyStr) :
    text.length ≤ (py.fold text).length := by
  induction text with
  | nil => exact Nat.zero_le _
  | cons x text ih =>
    have hx := List.length_pos_iff.mpr (py.casefold_ne_nil x)
    have hfold : py.fold (x :: text) = py.casefold x ++ py.fold text := List.flatMap_cons
    rw [hfold, List.length_append, List.length_cons]
    omega

theorem fold_append (py : PyCharacters) (text text' : PyStr) :
    py.fold (text ++ text') = py.fold text ++ py.fold text' := List.flatMap_append

theorem length_fold_strip_lt (h : part <:+: text)
    (hvisible : (visible part).length < (visible text).length) :
    (py.fold (PyStr.strip part)).length < (py.fold (PyStr.strip text)).length := by
  obtain ⟨l, r, heq⟩ : PyStr.strip part <:+: PyStr.strip text := TextTrim.trim_infix_trim h
  have hne : 0 < l.length + r.length := by
    by_contra hzero
    have hl : l = [] := List.length_eq_zero_iff.mp (by omega)
    have hr : r = [] := List.length_eq_zero_iff.mp (by omega)
    rw [hl, hr, List.nil_append, List.append_nil] at heq
    rw [← visible_strip part, ← visible_strip text, heq] at hvisible
    exact Nat.lt_irrefl _ hvisible
  have hlength := length_le_fold py l
  have hlength' := length_le_fold py r
  rw [← heq, fold_append, fold_append, List.length_append, List.length_append]
  omega

theorem length_visible_le (h : part <:+: text) :
    (visible part).length ≤ (visible text).length := (h.filter _).length_le

theorem visible_pos (h : PyStr.strip text ≠ []) : 0 < (visible text).length := by
  rw [List.length_pos_iff]
  intro hnil
  refine h (TextTrim.trim_eq_nil_iff.mpr fun x hx => ?_)
  have hx := List.filter_eq_nil_iff.mp hnil x hx
  rwa [Bool.not_eq_true, Bool.not_eq_false'] at hx

theorem exists_rest_of_not_survives (h : ¬ Survives c) : ∃ first sep rest,
    c.subject = first ++ sep :: rest ∧
      c.subject.splitOnP isLineEnd = first :: rest.splitOnP isLineEnd ∧
      0 < (visible rest).length := by
  obtain ⟨hnone, -⟩ | ⟨first, sep, rest, hsubject, hsep, hfirst, hsplit⟩ :=
    TextParts.splitOnP_cases isLineEnd c.subject
  · exact absurd (fun x hx => hnone x ((List.rdropWhile_prefix _ _).subset hx)) h
  · refine ⟨first, sep, rest, hsubject, hsplit, List.length_pos_iff.mpr fun hblank => ?_⟩
    -- Otherwise the first line end would belong to the white space at the end.
    refine h fun x hx => hfirst x ?_
    have hspace : ∀ y ∈ sep :: rest, pyIsSpace y := by
      intro y hy
      obtain rfl | hy := List.mem_cons.mp hy
      · exact lineEnd_isSpace hsep
      · have hy := List.filter_eq_nil_iff.mp hblank y hy
        rwa [Bool.not_eq_true, Bool.not_eq_false'] at hy
    have hrstrip : PyStr.rstrip c.subject = PyStr.rstrip first := by
      rw [hsubject, PyStr.rstrip, List.rdropWhile, List.reverse_append,
        List.dropWhile_append_of_pos fun y hy => hspace y (List.mem_reverse.mp hy)]
      rfl
    rw [hrstrip] at hx
    exact (List.rdropWhile_prefix _ _).subset hx

theorem readLine_of_not_survives (h : ¬ Survives c) : ∀ l ∈ readLine py c, l.sha ≠ [] →
    (py.fold l.subject).length < (py.fold (PyStr.strip c.subject)).length := by
  obtain ⟨first, sep, rest, hsubject, hsplit, hvisible⟩ := exists_rest_of_not_survives h
  obtain ⟨first', others, hparts, hread⟩ := exists_readLine py c
  obtain ⟨rfl, rfl⟩ := List.cons.inj (hparts.symm.trans hsplit)
  have hcount : (visible c.subject).length =
      (visible first').length + (visible [sep]).length + (visible rest).length := by
    rw [hsubject, visible_append, List.length_append, ← List.singleton_append, visible_append,
      List.length_append, Nat.add_assoc]
  have hrest : rest <:+: c.subject :=
    ⟨first' ++ [sep], [], by
      rw [hsubject, List.append_nil, List.append_assoc, List.singleton_append]⟩
  have hprefix : first' <:+: c.subject := ⟨[], sep :: rest, by rw [hsubject, List.nil_append]⟩
  intro l hl hsha
  rw [hread] at hl
  obtain rfl | hl := List.mem_cons.mp hl
  · exact length_fold_strip_lt hprefix (by omega)
  · obtain ⟨part, hpart, hl⟩ := List.mem_filterMap.mp hl
    obtain ⟨front, back, rfl, rfl⟩ := eq_append_of_loggedCommit hl
    -- The SHA is visible and stands before the subject.
    have hpart : front ++ unitSeparator :: back <:+: c.subject :=
      (TextParts.infix_of_mem_splitOnP hpart).trans hrest
    have hback : back <:+: c.subject := by
      refine List.IsInfix.trans ⟨front ++ [unitSeparator], [], ?_⟩ hpart
      rw [List.append_nil, List.append_assoc, List.singleton_append]
    have hfront := visible_pos hsha
    have hle := length_visible_le hpart
    rw [visible_append, List.length_append, ← List.singleton_append, visible_append,
      List.length_append] at hle
    exact length_fold_strip_lt hback (by omega)

theorem normalizedSubject_of_mem_readLine (h : l ∈ readLine py c) :
    l.normalizedSubject = py.fold l.subject := by
  obtain ⟨part, -, hl⟩ := List.mem_filterMap.mp h
  obtain ⟨front, back, -, rfl⟩ := eq_append_of_loggedCommit hl
  rfl

theorem exists_of_resolveTitle {sha : PyStr}
    (h : (resolveTitle py subjects title).commit = some sha) : ∃ l ∈ subjects, l.sha = sha ∧
      (l.subject = title ∨ py.fold title <:+: l.normalizedSubject) := by
  have hmem : ∀ {p : LoggedCommit → Bool} {l rest}, subjects.filter p = l :: rest →
      l ∈ subjects ∧ p l := fun heq =>
    List.mem_filter.mp (heq ▸ List.mem_cons_self)
  unfold resolveTitle at h
  dsimp only at h
  split at h
  · next l rest heq =>
    obtain ⟨hl, hsubject⟩ := hmem heq
    exact ⟨l, hl, Option.some.inj h, .inl (of_decide_eq_true hsubject)⟩
  · split at h
    · next l rest heq =>
      obtain ⟨hl, hsubject⟩ := hmem heq
      refine ⟨l, hl, Option.some.inj h, .inr ?_⟩
      rw [of_decide_eq_true hsubject]
    · split at h
      · next l heq =>
        obtain ⟨hl, hsubject⟩ := hmem heq
        exact ⟨l, hl, Option.some.inj h, .inr (of_decide_eq_true hsubject)⟩
      · cases h
      · cases h

theorem error_of_resolveTitle (h : (resolveTitle py subjects title).commit = none) :
    (resolveTitle py subjects title).error.isSome := by
  unfold resolveTitle at h ⊢
  dsimp only at h ⊢
  split at h
  · cases h
  · split at h
    · cases h
    · split at h
      · cases h
      · rfl
      · rfl

/-- The newest commit with the title as its subject, else the newest one with such a subject but
for case, else the only one whose subject has it in it but for case. -/
def expectedCommit (py : PyCharacters) (commits : List GitCommit) (title : PyStr) : Option PyStr :=
  match commits.find? fun c => PyStr.strip c.subject = title with
  | some c => some c.sha
  | none =>
    match commits.find? fun c => py.fold (PyStr.strip c.subject) = py.fold title with
    | some c => some c.sha
    | none =>
      match commits.filter fun c => py.fold title <:+: py.fold (PyStr.strip c.subject) with
      | [only] => some only.sha
      | _ => none

def loggedOf (py : PyCharacters) (c : GitCommit) : LoggedCommit :=
  ⟨c.sha, PyStr.strip c.subject, py.fold (PyStr.strip c.subject)⟩

theorem filter_loggedCommits (h : ∀ c ∈ commits, Survives c) {p : LoggedCommit → Bool}
    (hp : p ⟨[], [], []⟩ = false) :
    (loggedCommits py (translateNewlines (gitLog commits))).filter p =
      (commits.filter fun c => p (loggedOf py c)).map (loggedOf py) := by
  rw [loggedCommits_gitLog]
  induction commits with
  | nil => rfl
  | cons c commits ih =>
    obtain ⟨hc, hcommits⟩ := List.forall_mem_cons.mp h
    obtain ⟨blanks, hread, hblanks⟩ := readLine_of_survives py hc
    have hnone : blanks.filter p = [] := List.filter_eq_nil_iff.mpr fun blank hblank => by
      rw [hblanks blank hblank, hp]
      exact Bool.false_ne_true
    have hrest := ih hcommits
    rw [List.flatMap_cons, List.filter_append, hread, hrest, List.filter_cons, hnone,
      List.filter_cons, loggedOf]
    split <;> rfl

theorem fold_ne_nil (py : PyCharacters) (h : title ≠ []) : py.fold title ≠ [] := by
  have hle := length_le_fold py title
  have hpos := List.length_pos_iff.mpr h
  rw [← List.length_pos_iff]
  omega

theorem resolveTitle_eq_expected (h : ∀ c ∈ commits, Survives c) (htitle : title ≠ []) :
    (resolveTitle py (loggedCommits py (translateNewlines (gitLog commits))) title).commit =
      expectedCommit py commits title := by
  have hfold := fold_ne_nil py htitle
  have hexact : (loggedCommits py (translateNewlines (gitLog commits))).filter
      (fun s => s.subject = title) =
        (commits.filter fun c => PyStr.strip c.subject = title).map (loggedOf py) :=
    filter_loggedCommits h (decide_eq_false fun heq => htitle heq.symm)
  have hcase : (loggedCommits py (translateNewlines (gitLog commits))).filter
      (fun s => s.normalizedSubject = py.fold title) =
        (commits.filter fun c => py.fold (PyStr.strip c.subject) = py.fold title).map
          (loggedOf py) :=
    filter_loggedCommits h (decide_eq_false fun heq => hfold heq.symm)
  have hpart : (loggedCommits py (translateNewlines (gitLog commits))).filter
      (fun s => py.fold title <:+: s.normalizedSubject) =
        (commits.filter fun c => py.fold title <:+: py.fold (PyStr.strip c.subject)).map
          (loggedOf py) :=
    filter_loggedCommits h (decide_eq_false fun hinfix => hfold (List.infix_nil.mp hinfix))
  unfold resolveTitle expectedCommit
  dsimp only
  rw [hexact, hcase, hpart, ← List.head?_filter, ← List.head?_filter]
  cases commits.filter fun c => PyStr.strip c.subject = title with
  | cons c rest => rfl
  | nil =>
    cases commits.filter fun c => py.fold (PyStr.strip c.subject) = py.fold title with
    | cons c rest => rfl
    | nil =>
      cases commits.filter fun c => py.fold title <:+: py.fold (PyStr.strip c.subject) with
      | nil => rfl
      | cons c rest =>
        cases rest with
        | nil | cons c' rest => rfl

theorem get?_foldl_resolve (f : PyStr → CommitTitleResolution) {queries : List PyStr}
    (h : title ∈ queries) :
    (queries.foldl (fun resolutions query => resolutions.set query (f query))
      OrderedDict.empty).get? title = some (f title) := by
  induction queries using List.reverseRecOn with
  | nil => cases h
  | append_singleton queries query ih =>
    rw [List.foldl_append, List.foldl_cons, List.foldl_nil, OrderedDict.get?_set]
    split
    · next heq => rw [heq]
    · next hne =>
      obtain h | h := List.mem_append.mp h
      · exact ih h
      · exact absurd (List.mem_singleton.mp h) hne

end BackportGitClient

open BackportGitClient

/-- Each title has an outcome that does not depend on the others: the commit that is expected, or
an error. -/
def ResolvesTitles (py : PyCharacters) (commits : List GitCommit) : Prop :=
  ∃ outcome : PyStr → CommitTitleResolution,
    (∀ title ≠ [], (outcome title).commit = expectedCommit py commits title ∧
      ((outcome title).commit = none → (outcome title).error.isSome)) ∧
    ∀ sourceBranch titles queries, IsQueries titles queries →
      ∃ resolutions, resolveCommitsByTitle py sourceBranch
          ⟨0, translateNewlines (gitLog commits), []⟩ queries = .ok resolutions ∧
        ∀ title ∈ titles, PyStr.strip title ≠ [] →
          resolutions.get? (PyStr.strip title) = some (outcome (PyStr.strip title))

namespace BackportGitClient

variable {py : PyCharacters} {c : GitCommit} {commits : List GitCommit} {title : PyStr}

theorem resolvesTitles_of_survives (h : ∀ c ∈ commits, Survives c) : ResolvesTitles py commits := by
  refine ⟨resolveTitle py (loggedCommits py (translateNewlines (gitLog commits))),
    fun title htitle => ⟨resolveTitle_eq_expected h htitle, error_of_resolveTitle⟩, ?_⟩
  intro sourceBranch titles queries hqueries
  refine ⟨_, rfl, fun title htitle hne => get?_foldl_resolve _ ?_⟩
  exact (hqueries.2 _).mpr ⟨title, htitle, rfl, hne⟩

theorem resolveTitle_ne_of_not_survives (hc : ¬ Survives c)
    (hothers : ∀ c' ∈ commits, c'.sha ≠ c.sha ∧ (¬ Survives c' →
      (py.fold (PyStr.strip c'.subject)).length ≤ (py.fold (PyStr.strip c.subject)).length)) :
    (resolveTitle py (loggedCommits py (translateNewlines (gitLog (c :: commits))))
      (PyStr.strip c.subject)).commit ≠ some c.sha := by
  intro hfound
  obtain ⟨l, hl, hsha, hmatch⟩ := exists_of_resolveTitle hfound
  rw [loggedCommits_gitLog] at hl
  obtain ⟨c', hc', hl⟩ := List.mem_flatMap.mp hl
  have hne : l.sha ≠ [] := hsha ▸ c.sha_ne_nil
  have hlength : (py.fold (PyStr.strip c.subject)).length ≤ (py.fold l.subject).length := by
    obtain hsubject | hinfix := hmatch
    · rw [hsubject]
    · rw [normalizedSubject_of_mem_readLine hl] at hinfix
      exact hinfix.length_le
  by_cases hsurvives : Survives c'
  · obtain ⟨blanks, hread, hblanks⟩ := readLine_of_survives py hsurvives
    rw [hread] at hl
    obtain rfl | hl := List.mem_cons.mp hl
    · obtain rfl | hc' := List.mem_cons.mp hc'
      · exact hc hsurvives
      · exact (hothers c' hc').1 hsha
    · rw [hblanks l hl] at hne
      exact hne rfl
  · have hlt := readLine_of_not_survives hsurvives l hl hne
    obtain rfl | hc' := List.mem_cons.mp hc'
    · omega
    · have hle := (hothers c' hc').2 hsurvives
      omega

theorem strip_ne_nil_of_not_survives (h : ¬ Survives c) : PyStr.strip c.subject ≠ [] := by
  obtain ⟨first, sep, rest, hsubject, -, hvisible⟩ := exists_rest_of_not_survives h
  intro hblank
  have hnone := visible_of_blank hblank
  rw [hsubject, visible_append, ← List.singleton_append, visible_append] at hnone
  obtain ⟨-, hrest⟩ := List.append_eq_nil_iff.mp hnone
  rw [(List.append_eq_nil_iff.mp hrest).2] at hvisible
  exact Nat.lt_irrefl 0 hvisible

theorem exists_longest_lost (py : PyCharacters) (h : ∃ c ∈ commits, ¬ Survives c) :
    ∃ c ∈ commits, ¬ Survives c ∧ ∀ c' ∈ commits, ¬ Survives c' →
      (py.fold (PyStr.strip c'.subject)).length ≤ (py.fold (PyStr.strip c.subject)).length := by
  obtain ⟨c₀, hc₀, hlost⟩ := h
  have hmem : c₀ ∈ commits.filter fun c => ¬ Survives c :=
    List.mem_filter.mpr ⟨hc₀, decide_eq_true hlost⟩
  cases hmax : (commits.filter fun c => ¬ Survives c).argmax
      fun c => (py.fold (PyStr.strip c.subject)).length with
  | none =>
    rw [List.argmax_eq_none.mp hmax] at hmem
    cases hmem
  | some c =>
    obtain ⟨hc, hlost⟩ := List.mem_filter.mp (List.argmax_mem hmax)
    refine ⟨c, hc, of_decide_eq_true hlost, fun c' hc' hlost' => ?_⟩
    have hmem' : c' ∈ commits.filter fun c => ¬ Survives c :=
      List.mem_filter.mpr ⟨hc', decide_eq_true hlost'⟩
    exact List.le_of_mem_argmax (f := fun c : GitCommit =>
      (py.fold (PyStr.strip c.subject)).length) hmem' hmax

theorem isQueries_singleton (h : title ≠ []) (hstrip : PyStr.strip title = title) :
    IsQueries [title] [title] := by
  refine ⟨List.nodup_singleton _, fun query => ?_⟩
  simp only [List.mem_singleton, exists_eq_left, hstrip]
  constructor
  · rintro rfl
    exact ⟨rfl, h⟩
  · exact fun hquery => hquery.1.symm

end BackportGitClient

/-- In whatever order the commits of a history are: each title is resolved as it should be exactly
when every subject survives. -/
theorem resolves_in_any_order_iff (py : PyCharacters) (history : GitHistory) :
    (∀ order : List GitCommit, order.Perm history.commits → ResolvesTitles py order) ↔
      ∀ c ∈ history.commits, BackportGitClient.Survives c := by
  constructor
  · intro hresolves
    by_contra hnot
    simp only [not_forall] at hnot
    obtain ⟨c₀, hc₀, hlost₀⟩ := hnot
    obtain ⟨c, hc, hlost, hlongest⟩ := exists_longest_lost py ⟨c₀, hc₀, hlost₀⟩
    -- The commit with a longest lost subject becomes the newest.
    obtain ⟨newer, older, heq⟩ := List.append_of_mem hc
    have horder : (c :: (newer ++ older)).Perm history.commits := heq ▸ List.perm_middle.symm
    have hdistinct := (horder.map GitCommit.sha).nodup_iff.mpr history.distinct
    obtain ⟨hnew, -⟩ := List.nodup_cons.mp hdistinct
    obtain ⟨outcome, hexpected, hrun⟩ := hresolves _ horder
    have htitle := strip_ne_nil_of_not_survives hlost
    have hstrip : PyStr.strip (PyStr.strip c.subject) = PyStr.strip c.subject :=
      TextTrim.trim_trim _ _
    obtain ⟨resolutions, hok, hget⟩ := hrun [] _ _ (isQueries_singleton htitle hstrip)
    cases hok
    have hfound := hget _ (List.mem_singleton_self _) (hstrip.symm ▸ htitle)
    rw [hstrip, get?_foldl_resolve _ (List.mem_singleton_self _)] at hfound
    have hcommit := (hexpected _ htitle).1
    rw [← Option.some.inj hfound] at hcommit
    have hnewest : expectedCommit py (c :: (newer ++ older)) (PyStr.strip c.subject) =
        some c.sha := by
      simp [expectedCommit]
    refine resolveTitle_ne_of_not_survives hlost (fun c' hc' => ⟨fun hsha => ?_, ?_⟩)
      (hcommit.trans hnewest)
    · exact hnew (hsha ▸ List.mem_map_of_mem hc')
    · exact hlongest c' (horder.mem_iff.mp (List.mem_cons_of_mem c hc'))
  · intro hsurvives order horder
    exact resolvesTitles_of_survives fun c hc => hsurvives c (horder.mem_iff.mp hc)

namespace BackportGitClient

/-- Letters with their case folded one by one, and a list of texts without quotes in them. -/
def plainCharacters : PyCharacters where
  casefold x := [x.toLower]
  casefold_ne_nil _ := List.cons_ne_nil _ _
  repr texts := '[' :: [',',
    ' '].intercalate (texts.map fun text => '\'' :: text ++ ['\'']) ++ [']']

theorem c0ffee_digits : "c0ffee".toList.all
    (fun x => decide (x ∈ "0123456789abcdef".toList)) = true := by decide

def formFeedHistory : GitHistory where
  commits := [⟨"c0ffee".toList, "fix\u000cbug".toList, by decide,
    fun x hx => of_decide_eq_true (List.all_eq_true.mp c0ffee_digits x hx), by decide⟩]
  distinct := List.nodup_singleton _

/-- The commit is not found by its subject. -/
theorem formFeed_not_resolved : ¬ ∀ order : List GitCommit,
    order.Perm formFeedHistory.commits → ResolvesTitles plainCharacters order := by
  intro hresolves
  obtain ⟨outcome, hexpected, hrun⟩ := hresolves _ (List.Perm.refl _)
  obtain ⟨resolutions, hok, hget⟩ := hrun [] ["fix\u000cbug".toList] ["fix\u000cbug".toList]
    (isQueries_singleton (by decide) (by decide))
  cases hok
  have hfound := hget _ (List.mem_singleton_self _) (by decide)
  have hcommit := (hexpected "fix\u000cbug".toList (by decide)).1
  have hstrip : PyStr.strip "fix\u000cbug".toList = "fix\u000cbug".toList := by decide
  rw [hstrip, get?_foldl_resolve _ (List.mem_singleton_self _)] at hfound
  rw [← Option.some.inj hfound] at hcommit
  have hlost : (resolveTitle plainCharacters (loggedCommits plainCharacters
      (translateNewlines (gitLog formFeedHistory.commits))) "fix\u000cbug".toList).commit =
        none := by decide
  rw [hlost] at hcommit
  cases hcommit

end BackportGitClient

end WittyService

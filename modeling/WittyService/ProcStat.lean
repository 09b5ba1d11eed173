import Mathlib.Logic.Relation
import WittyService.TextSegments

/-! `/proc/<pid>/stat`: what the kernel writes there, and what `read_proc_stat` makes of it. The
name of a process is its own choice, so it may have blanks and brackets. -/
namespace WittyService

def pyStrOfNat (n : ℕ) : PyStr := Nat.toDigits 10 n

theorem pyStrOfNat_injective {m n : ℕ} (h : pyStrOfNat m = pyStrOfNat n) : m = n := by
  have hdigits := congrArg (fun text => Nat.ofDigitChars 10 text 0) h
  simpa only [pyStrOfNat, Nat.ofDigitChars_ten_toDigits] using hdigits

structure StatColumn where
  text : PyStr
  nonempty : text ≠ []
  solid : ∀ c ∈ text, pyIsSpace c = false ∧ c ≠ ')'

namespace StatColumn

theorem solid_of_isDigit {c : Char} (h : c.isDigit = true) : pyIsSpace c = false ∧ c ≠ ')' := by
  simp only [Char.isDigit, Bool.and_eq_true, decide_eq_true_eq] at h
  obtain ⟨hlow, hhigh⟩ := h
  constructor
  · -- the blanks are below the digits or far above them
    unfold pyIsSpace
    simp only [List.mem_cons, List.not_mem_nil, or_false, decide_eq_false_iff_not]
    rintro (h | h | h | h | h | h | h | h | h | h | h | h | h | h | h | h | h | h | h | h | h | h |
      h | h | h | h | h | h | h) <;> rw [h] at hlow hhigh <;> revert hlow hhigh <;> decide
  · rintro rfl
    revert hlow
    decide

def ofNat (n : ℕ) : StatColumn where
  text := pyStrOfNat n
  nonempty := Nat.toDigits_ne_nil
  solid c hc := solid_of_isDigit (Nat.isDigit_of_mem_toDigits (by decide) (by decide) hc)

end StatColumn

/-- `state`, without the codes of threads that are no longer listed. -/
inductive ProcState where
  | running
  | sleeping
  | diskSleep
  | stopped
  | traced
  | idle
  | zombie
  deriving DecidableEq, Repr

def ProcState.code : ProcState → Char
  | running => 'R'
  | sleeping => 'S'
  | diskSleep => 'D'
  | stopped => 'T'
  | traced => 't'
  | idle => 'I'
  | zombie => 'Z'

theorem ProcState.code_eq_zombie {state : ProcState} : state.code = 'Z' ↔ state = zombie := by
  cases state <;> decide

def ProcState.column (state : ProcState) : StatColumn where
  text := [state.code]
  nonempty := List.cons_ne_nil _ _
  solid c hc := by
    rw [List.mem_singleton.mp hc]
    cases state <;> decide

/-- A process. `comm` is `none` where its bytes are no UTF-8. Whether it is `inSandbox`, in the
process group that the sandbox was started as, is nothing the code can read: a later group may
have the same id. -/
structure Process where
  pid : ℕ
  pgrp : ℕ
  startTime : ℕ
  state : ProcState
  inSandbox : Bool
  comm : Option PyStr
  cmdline : List PyStr
  ppid : StatColumn
  between : Fin 16 → StatColumn
  after : List StatColumn

namespace Process

/-- The columns after the name. The group is the fifth column of the file, and the start time the
twenty-second. -/
def columns (p : Process) : List StatColumn :=
  [p.state.column, p.ppid, .ofNat p.pgrp] ++ List.ofFn p.between ++ .ofNat p.startTime :: p.after

def statTail (p : Process) : PyStr := p.columns.flatMap (fun c => ' ' :: c.text) ++ ['\n']

def statFile (p : Process) : Option PyStr :=
  p.comm.map fun comm => pyStrOfNat p.pid ++ [' ', '('] ++ comm ++ ')' :: p.statTail

/-- `read_proc_cmdline` once the file is open. A zombie has an empty one. -/
def readCmdline (p : Process) : Option (List PyStr) :=
  if p.state = .zombie ∨ p.cmdline = [] then none else some (p.cmdline.filter (· ≠ []))

end Process

/-- `read_proc_stat` of the text of the file. -/
def readProcStat (raw : PyStr) : Option (PyStr × PyStr × PyStr) :=
  if ')' ∉ raw then none
  else
    -- the text after the last bracket
    let fields := PyStr.words (raw.rtakeWhile (· ≠ ')'))
    if fields.length < 20 then none
    else some (fields.getD 0 [], fields.getD 2 [], fields.getD 19 [])

theorem words_columns (columns : List StatColumn) :
    PyStr.words (columns.flatMap (fun c => ' ' :: c.text) ++ ['\n']) = columns.map (·.text) := by
  -- a word starts after a blank and ends before the next one
  have hwords : ∀ tail : PyStr, PyStr.words (' ' :: tail) = PyStr.words tail := by
    intro tail
    have hblank : pyIsSpace ' ' = true := by decide
    have hsplit := List.splitOnP_append_cons [] tail hblank
    simp only [List.nil_append, List.splitOnP_nil] at hsplit
    simp [PyStr.words, hsplit]
  induction columns with
  | nil => decide
  | cons c columns ih =>
    have hend : ∃ (sep : Char) (tail : PyStr), pyIsSpace sep = true ∧
        columns.flatMap (fun c => ' ' :: c.text) ++ ['\n'] = sep :: tail ∧
        PyStr.words (sep :: tail) = PyStr.words tail := by
      cases columns with
      | nil => exact ⟨'\n', [], by decide, rfl, by decide⟩
      | cons c columns =>
        refine ⟨' ', c.text ++ (columns.flatMap (fun c => ' ' :: c.text) ++ ['\n']), by decide, ?_,
          hwords _⟩
        rw [List.flatMap_cons, List.append_assoc, List.cons_append]
    obtain ⟨sep, tail, hsep, htail, hrest⟩ := hend
    rw [htail, hrest] at ih
    have hsplit := List.splitOnP_append_cons_of_forall_mem (fun x hx => (c.solid x hx).1) sep hsep
      tail
    calc PyStr.words ((c :: columns).flatMap (fun c => ' ' :: c.text) ++ ['\n'])
        = PyStr.words (c.text ++ sep :: tail) := by
          rw [List.flatMap_cons, List.append_assoc, htail, List.cons_append, hwords]
      _ = c.text :: PyStr.words tail := by
          simp [PyStr.words, hsplit, c.nonempty]
      _ = (c :: columns).map (·.text) := by rw [ih, List.map_cons]

namespace Process

variable {p : Process}

theorem bracket_not_mem_statTail : ')' ∉ p.statTail := by
  intro h
  rcases List.mem_append.mp h with h | h
  · obtain ⟨c, -, hc⟩ := List.mem_flatMap.mp h
    rcases List.mem_cons.mp hc with hc | hc
    · cases hc
    · exact (c.solid _ hc).2 rfl
  · revert h
    decide

/-- No bracket of the name is taken for the last one. -/
theorem rest_statFile {raw : PyStr} (h : p.statFile = some raw) :
    ')' ∈ raw ∧ PyStr.words (raw.rtakeWhile (· ≠ ')')) = p.columns.map (·.text) := by
  obtain ⟨comm, -, rfl⟩ := Option.map_eq_some_iff.mp h
  have hall : ∀ c ∈ p.statTail.reverse, decide (c ≠ ')') = true := by
    intro c hc
    have hne : c ≠ ')' := by
      rintro rfl
      exact bracket_not_mem_statTail (List.mem_reverse.mp hc)
    exact decide_eq_true hne
  refine ⟨by simp, ?_⟩
  rw [← words_columns p.columns, ← statTail]
  simp only [List.rtakeWhile, List.reverse_append, List.reverse_cons, List.append_assoc]
  rw [List.takeWhile_append_of_pos hall]
  simp

theorem readProcStat_statFile {raw : PyStr} (h : p.statFile = some raw) :
    readProcStat raw = some ([p.state.code], pyStrOfNat p.pgrp, pyStrOfNat p.startTime) := by
  obtain ⟨hmem, hfields⟩ := rest_statFile h
  have hlength : p.columns.length = 20 + p.after.length := by
    simp [columns]
    omega
  have hstart : (p.columns.map (·.text)).getD 19 [] = pyStrOfNat p.startTime := by
    simp [columns, StatColumn.ofNat]
  unfold readProcStat
  rw [if_neg (not_not.mpr hmem), hfields, if_neg (by rw [List.length_map]; omega), hstart]
  simp [columns, ProcState.column, StatColumn.ofNat]

end Process

/-- The parent in the text of `stat`. -/
def parentPid (raw : PyStr) : Option ℕ :=
  if ')' ∉ raw then none
  else match PyStr.words (raw.rtakeWhile (· ≠ ')')) with
  | _ :: ppid :: _ => if ppid.all Char.isDigit then some (Nat.ofDigitChars 10 ppid 0) else none
  | _ => none

/-- `children`, of the pids in `/proc` with their `stat` where it can be read. -/
def childrenOf (listing : List (ℕ × Option PyStr)) (pid : ℕ) : List ℕ :=
  (listing.filter fun e => e.2.bind parentPid = some pid).map Prod.fst

/-- The loop of `_collect_descendants`, for so many rounds. `queue.pop()` takes the last one, here
the first. -/
def descendantsLoop (children : ℕ → List ℕ) : ℕ → List ℕ → List ℕ → Option (List ℕ)
  | _, [], found => some found
  | 0, _ :: _, _ => none
  | n + 1, current :: queue, found =>
    descendantsLoop children n ((children current).reverse ++ queue) (found ++ children current)

def collectDescendants (listing : List (ℕ × Option PyStr)) (pid n : ℕ) : Option (List ℕ) :=
  descendantsLoop (childrenOf listing) n [pid] []

section

variable {children : ℕ → List ℕ} {n pid : ℕ} {queue found out : List ℕ}

theorem mem_descendantsLoop (h : descendantsLoop children n queue found = some out) {x : ℕ} :
    x ∈ out ↔ x ∈ found ∨ ∃ a ∈ queue, Relation.TransGen (fun a b => b ∈ children a) a x := by
  induction n generalizing queue found with
  | zero =>
    cases queue with
    | nil =>
      cases h
      simp
    | cons => cases h
  | succ n ih =>
    cases queue with
    | nil =>
      cases h
      simp
    | cons current queue =>
      have hcurrent : Relation.TransGen (fun a b => b ∈ children a) current x ↔
          x ∈ children current ∨
            ∃ a ∈ children current, Relation.TransGen (fun a b => b ∈ children a) a x := by
        rw [Relation.TransGen.head'_iff]
        simp only [Relation.reflTransGen_iff_eq_or_transGen, and_or_left, exists_or,
          exists_eq_right']
      rw [ih h]
      simp only [List.mem_append, List.mem_reverse, List.mem_cons, or_and_right, exists_or,
        exists_eq_left, hcurrent, or_assoc]

/-- While the loop ends, no process in the queue has an endless line of children. -/
theorem acc_of_descendantsLoop (h : descendantsLoop children n queue found = some out) :
    ∀ a ∈ queue, Acc (fun b a => b ∈ children a) a := by
  induction n generalizing queue found with
  | zero =>
    cases queue with
    | nil => exact List.forall_mem_nil _
    | cons => cases h
  | succ n ih =>
    cases queue with
    | nil => exact List.forall_mem_nil _
    | cons current queue =>
      obtain ⟨hchildren, hqueue⟩ := List.forall_mem_append.mp (ih h)
      exact List.forall_mem_cons.mpr ⟨⟨_, fun b hb => hchildren b (List.mem_reverse.mpr hb)⟩, hqueue⟩

theorem descendantsLoop_of_acc (hpid : Acc (fun b a => b ∈ children a) pid)
    (hqueue : ∀ found, ∃ n, (descendantsLoop children n queue found).isSome) (found : List ℕ) :
    ∃ n, (descendantsLoop children n (pid :: queue) found).isSome := by
  induction hpid generalizing queue found with
  | intro pid _ ih =>
    have hall : ∀ line : List ℕ, (∀ a ∈ line, a ∈ children pid) → ∀ found, ∃ n,
        (descendantsLoop children n (line ++ queue) found).isSome := by
      intro line hline
      induction line with
      | nil => exact hqueue
      | cons a line ihline =>
        obtain ⟨ha, hline⟩ := List.forall_mem_cons.mp hline
        exact ih a ha (ihline hline)
    obtain ⟨n, hn⟩ := hall _ (fun a ha => List.mem_reverse.mp ha) (found ++ children pid)
    exact ⟨n + 1, hn⟩

end

def IsChild (table : List Process) (parent : Process → ℕ) (a b : ℕ) : Prop :=
  ∃ p ∈ table, parent p = a ∧ p.pid = b

variable {table : List Process} {parent age : Process → ℕ}
  (hreads : ∀ p ∈ table, p.comm.isSome = true ∧ p.ppid = .ofNat (parent p))
  (hages : ∀ p ∈ table, ∀ q ∈ table, parent q = p.pid → age q < age p)

include hreads in
/-- Whatever names the processes have, the ones with this parent are found. -/
theorem mem_childrenOf_table {a b : ℕ} :
    b ∈ childrenOf (table.map fun p => (p.pid, p.statFile)) a ↔ IsChild table parent a b := by
  have hparent : ∀ p ∈ table, p.statFile.bind parentPid = some (parent p) := by
    intro p hp
    obtain ⟨hcomm, hppid⟩ := hreads p hp
    obtain ⟨raw, hraw⟩ : ∃ raw, p.statFile = some raw :=
      Option.isSome_iff_exists.mp (Option.isSome_map.trans hcomm)
    obtain ⟨hmem, hfields⟩ := Process.rest_statFile hraw
    rw [hraw, Option.bind_some, parentPid, if_neg (not_not.mpr hmem), hfields]
    simp only [Process.columns, hppid, StatColumn.ofNat, pyStrOfNat]
    simpa using fun c hc => Nat.isDigit_of_mem_toDigits (by decide) (by decide) hc
  unfold childrenOf
  simp only [List.mem_map, List.mem_filter, decide_eq_true_eq]
  constructor
  · rintro ⟨_, ⟨⟨p, hp, rfl⟩, hchild⟩, rfl⟩
    exact ⟨p, hp, Option.some.inj ((hparent p hp).symm.trans hchild), rfl⟩
  · rintro ⟨p, hp, rfl, rfl⟩
    exact ⟨_, ⟨⟨p, hp, rfl⟩, hparent p hp⟩, rfl⟩

include hages in
theorem acc_table :
    ∀ p ∈ table, Acc (fun b a => IsChild table parent a b) p.pid := by
  intro p hp
  induction hage : age p using Nat.strong_induction_on generalizing p with
  | _ n ih =>
    constructor
    rintro _ ⟨q, hq, hparent, rfl⟩
    exact ih _ (hage ▸ hages p hp q hq hparent) q hq rfl

def bracketed : Process :=
  ⟨2, 1, 0, .sleeping, true, some "a) S 3".toList, [], .ofNat 1, fun _ => .ofNat 0, []⟩

end WittyService

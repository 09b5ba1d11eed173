import Mathlib.Data.List.DropRight
import WittyService.Json

/-! `split_text` of the channel delivery. A Python string is the list of its characters. -/
namespace WittyService

abbrev PyStr := List Char

instance : LawfulBEq PyStr := inferInstance

namespace PyStr

def lines (text : PyStr) : List PyStr := text.splitOn '\n'

def words (text : PyStr) : List PyStr := (text.splitOnP pyIsSpace).filter (· ≠ [])

def joinLines (lines : List PyStr) : PyStr := ['\n'].intercalate lines

def lstrip (text : PyStr) : PyStr := text.dropWhile pyIsSpace

def rstrip (text : PyStr) : PyStr := text.rdropWhile pyIsSpace

def strip (text : PyStr) : PyStr := rstrip (lstrip text)

def lstripNewlines (text : PyStr) : PyStr := text.dropWhile (· == '\n')

def stripNewlines (text : PyStr) : PyStr := (lstripNewlines text).rdropWhile (· == '\n')

/-- `text.rfind(needle)`, `none` for -1. -/
def rfind (text needle : PyStr) : Option Nat :=
  (List.range (text.length + 1)).reverse.find? fun i => needle.isPrefixOf (text.drop i)

end PyStr

def DEFAULT_MAX_TEXT_LENGTH : Nat := 2000
def FENCE : PyStr := ['`', '`', '`']
def TABLE_ROW_PREFIX : PyStr := ['|']

def startsFence (line : PyStr) : Bool := FENCE.isPrefixOf (PyStr.strip line)
def startsTableRow (line : PyStr) : Bool := TABLE_ROW_PREFIX.isPrefixOf (PyStr.strip line)

/-- `_CUT_PRIORITIES`: separators, and where to cut counted from their beginning. -/
def CUT_PRIORITIES : List (List PyStr × Nat) := [
  ([['\n', '\n']], 2),
  ([['\n']], 1),
  ([['。'], ['！'], ['？']], 1),
  ([['!', ' '], ['?', ' '], ['.', ' ']], 2),
  ([[' ']], 1)]

inductive BlockKind where
  | paragraph
  | code
  | table
  deriving DecidableEq, Repr

structure Block where
  kind : BlockKind
  text : PyStr
  deriving DecidableEq, Repr

def flushParagraph (paragraph : List PyStr) : List Block :=
  let joined := PyStr.stripNewlines (PyStr.joinLines paragraph)
  if paragraph = [] ∨ PyStr.strip joined = [] then [] else [⟨.paragraph, joined⟩]

/-- The `while index < len(lines)` loop; every turn consumes a line, so the number of lines
is fuel enough. -/
def blocksLoop : ℕ → List PyStr → List PyStr → List Block
  | 0, _, paragraph => flushParagraph paragraph
  | _ + 1, [], paragraph => flushParagraph paragraph
  | n + 1, line :: rest, paragraph =>
    if startsFence line then
      let body := rest.takeWhile fun l => !startsFence l
      let after := rest.dropWhile fun l => !startsFence l
      flushParagraph paragraph ++
        ⟨.code, PyStr.joinLines (line :: body ++ after.take 1)⟩ :: blocksLoop n (after.drop 1) []
    else if startsTableRow line then
      let body := rest.takeWhile startsTableRow
      flushParagraph paragraph ++
        ⟨.table, PyStr.joinLines (line :: body)⟩ ::
          blocksLoop n (rest.dropWhile startsTableRow) []
    else if PyStr.strip line = [] then flushParagraph paragraph ++ blocksLoop n rest []
    else blocksLoop n rest (paragraph ++ [line])

def iterBlocks (text : PyStr) : List Block :=
  blocksLoop (PyStr.lines text).length (PyStr.lines text) []

/-- `_hard_split`, with the length of the text as fuel. -/
def hardSplitLoop (budget : ℕ) : ℕ → PyStr → List PyStr
  | 0, _ => []
  | n + 1, text =>
    if text = [] then [] else text.take budget :: hardSplitLoop budget n (text.drop budget)

def hardSplit (text : PyStr) (budget : ℕ) : List PyStr := hardSplitLoop budget text.length text

def closeGroup (current : List PyStr) : List PyStr :=
  if current = [] then [] else [PyStr.joinLines current]

/-- The loop of `_group_lines`. -/
def groupLoop (budget : ℕ) : List PyStr → List PyStr → ℕ → List PyStr
  | [], current, _ => closeGroup current
  | line :: lines, current, currentLength =>
    if line.length > budget then
      closeGroup current ++ hardSplit line budget ++ groupLoop budget lines [] 0
    else
      let addition := line.length + (if current = [] then 0 else 1)
      if current ≠ [] ∧ currentLength + addition > budget then
        PyStr.joinLines current :: groupLoop budget lines [line] line.length
      else groupLoop budget lines (current ++ [line]) (currentLength + addition)

def groupLines (lines : List PyStr) (budget : ℕ) : List PyStr := groupLoop budget lines [] 0

def codeBody (text : PyStr) : List PyStr :=
  let body := (PyStr.lines text).drop 1
  if body.getLast?.any startsFence then body.dropLast else body

def splitCode (text : PyStr) (maxLength : ℕ) : List PyStr :=
  let opening := (PyStr.lines text).headD []
  let budget := max 1 (maxLength - opening.length - FENCE.length - 2)
  (groupLines (codeBody text) budget).map fun group =>
    opening ++ ['\n'] ++ group ++ ['\n'] ++ FENCE

def isTableSeparator (line : PyStr) : Bool :=
  startsTableRow line && (PyStr.strip line).all fun c => c ∈ ['|', '-', ':', ' ', '\t']

def tablePrefix (text : PyStr) : List PyStr :=
  match PyStr.lines text with
  | header :: second :: _ => if isTableSeparator second then [header, second] else [header]
  | lines => lines

def tableBody (text : PyStr) : List PyStr := (PyStr.lines text).drop (tablePrefix text).length

def splitTable (text : PyStr) (maxLength : ℕ) : List PyStr :=
  let overhead := (PyStr.joinLines (tablePrefix text)).length + 1
  let budget := max 1 (maxLength - overhead)
  (groupLines (tableBody text) budget).map fun group =>
    PyStr.joinLines (tablePrefix text ++ PyStr.lines group)

def cutPosition (window : PyStr) (priority : List PyStr × Nat) : ℕ :=
  priority.1.foldl (fun position needle =>
    match PyStr.rfind window needle with
    | some found => max position (found + priority.2)
    | none => position) 0

/-- The loop of `_find_cut_point`. -/
def cutLoop (window : PyStr) (minimum limit : ℕ) : List (List PyStr × Nat) → ℕ → ℕ
  | [], fallback => if fallback > 0 then fallback else limit
  | priority :: priorities, fallback =>
    let position := cutPosition window priority
    if position = 0 then cutLoop window minimum limit priorities fallback
    else if position ≥ minimum then position
    else cutLoop window minimum limit priorities (max fallback position)

def findCutPoint (text : PyStr) (limit : ℕ) : ℕ :=
  cutLoop (text.take limit) (max 1 (limit / 2)) limit CUT_PRIORITIES 0

/-- The `while len(remaining) > max_length` loop. A cut is never 0, so a fuel above the
length of the text is enough. -/
def paragraphLoop (maxLength : ℕ) : ℕ → PyStr → List PyStr
  | 0, _ => []
  | n + 1, remaining =>
    if remaining.length > maxLength then
      let cut := findCutPoint remaining maxLength
      let cut := if PyStr.rstrip (remaining.take cut) = [] then maxLength else cut
      let head := PyStr.rstrip (remaining.take cut)
      (if head = [] then [] else [head]) ++
        paragraphLoop maxLength n (PyStr.lstripNewlines (remaining.drop cut))
    else if PyStr.strip remaining = [] then [] else [remaining]

def splitParagraph (text : PyStr) (maxLength : ℕ) : List PyStr :=
  paragraphLoop maxLength (text.length + 1) text

def splitBlock (block : Block) (maxLength : ℕ) : List PyStr :=
  if block.text.length ≤ maxLength then [block.text]
  else
    match block.kind with
    | .code => splitCode block.text maxLength
    | .table => splitTable block.text maxLength
    | .paragraph => splitParagraph block.text maxLength

/-- The loop over the chunks of all blocks; `current` is the segment that may still grow. -/
def packLoop (maxLength : ℕ) : List PyStr → PyStr → List PyStr
  | [], current => if current = [] then [] else [current]
  | chunk :: chunks, current =>
    let candidate := if current = [] then chunk else current ++ ['\n', '\n'] ++ chunk
    if candidate.length ≤ maxLength then packLoop maxLength chunks candidate
    else (if current = [] then [] else [current]) ++ packLoop maxLength chunks chunk

def splitText (text : PyStr) (maxLength : Int) : List PyStr :=
  let limit := if maxLength ≤ 0 then DEFAULT_MAX_TEXT_LENGTH else maxLength.toNat
  if PyStr.strip text = [] then []
  else packLoop limit ((iterBlocks text).flatMap fun block => splitBlock block limit) []

end WittyService

import WittyService.CsvText
import WittyService.RuntimeSkills

/-! The lists of commits that are put into a backport task: `validate_commit_entries`,
`serialize_commit_entries` and `parse_commit_import`. Text is code points, so that a title may have
a lone surrogate. -/
namespace WittyService

open Utf8Text

def asciiLower (c : ℕ) : ℕ := if 65 ≤ c ∧ c ≤ 90 then c + 32 else c

def isAsciiAlnum (c : ℕ) : Bool :=
  (48 ≤ c && c ≤ 57) || (65 ≤ c && c ≤ 90) || (97 ≤ c && c ≤ 122)

/-- `str.isalnum` of a character and `str.lower`. Only what they do in ASCII is said. -/
structure UnicodeTables where
  isAlnum : ℕ → Bool
  lower : CodePoints → CodePoints
  isAlnum_ascii : ∀ c < 128, isAlnum c = isAsciiAlnum c
  lower_ascii : ∀ t : CodePoints, (∀ c ∈ t, c < 128) → lower t = t.map asciiLower

structure CommitEntry where
  commit : CodePoints
  commitTitle : CodePoints
  deriving DecidableEq

structure ImportError where
  row : Option ℕ := none
  field : String
  message : String
  deriving DecidableEq

structure ImportWarning where
  row : ℕ
  message : String
  deriving DecidableEq

structure PreviewRow where
  row : ℕ
  commit : CodePoints
  commitTitle : CodePoints
  deriving DecidableEq

structure CommitImportResult where
  entries : List CommitEntry := []
  errors : List ImportError := []
  warnings : List ImportWarning := []
  rows : List PreviewRow := []
  deriving DecidableEq

/-- An item of the iterable: a JSON value, or a value with its row as `parse_commit_import` hands
it on. -/
inductive ImportItem where
  | value (entry : JsonText.Value)
  | numbered (row : ℕ) (entry : JsonText.Value)

namespace CommitImport

def MAX_COMMIT_IMPORT_BYTES : ℕ := 1024 * 1024
def MAX_COMMIT_IMPORT_ENTRIES : ℕ := 5000

def FIELD_SIZE_LIMIT : ℕ := 131072

def COMMIT_ID_HEADER_ALIASES : List CodePoints :=
  [text "commithash", text "commit", text "hash", text "sha", text "commitid"]

def COMMIT_TITLE_HEADER_ALIASES : List CodePoints :=
  [text "committitle", text "title", text "subject", text "patchtitle"]

inductive Delimiter where
  | csv
  | tsv
  deriving DecidableEq

def dialect : Delimiter → CsvText.Dialect ℕ
  | .csv => ⟨44, 34, 13, 10, by decide⟩
  | .tsv => ⟨9, 34, 13, 10, by decide⟩

def serializeCommitEntries (entries : List CommitEntry) : CodePoints :=
  CsvText.write (dialect .csv) ([text "commit_id", text "commit_title"] ::
    entries.map fun entry => [entry.commit, entry.commitTitle])

def isHexDigit (c : ℕ) : Bool :=
  (48 ≤ c && c ≤ 57) || (65 ≤ c && c ≤ 70) || (97 ≤ c && c ≤ 102)

/-- `SHA_PATTERN.fullmatch`. -/
def isSha (t : CodePoints) : Bool := 7 ≤ t.length && t.all isHexDigit

def stripped : Option JsonText.Value → CodePoints
  | some (.str s) => RuntimeSkills.strip s
  | _ => []

def isSingleLine (t : CodePoints) : Bool := 10 ∉ t && 13 ∉ t

structure Checking where
  normalized : List CommitEntry := []
  errors : List ImportError := []
  warnings : List ImportWarning := []
  firstForSha : OrderedDict CodePoints (ℕ × CodePoints) := .empty

def notAnEntry (row : ℕ) : ImportError :=
  { row := some row, field := "entry", message := "提交条目必须是对象，且包含 commit 与 commit_title。" }

def entryErrors (row : ℕ) (commit title : CodePoints) : List ImportError :=
  (if isSha commit then []
    else [{ row := some row, field := "commit",
            message := "commit_id 必须是至少 7 位的十六进制 Git SHA。" }]) ++
  (if title = [] then
    [{ row := some row, field := "commit_title", message := "commit_title 不能为空。" }]
  else if isSingleLine title then []
  else [{ row := some row, field := "commit_title", message := "commit_title 必须是单行文本。" }])

def Checking.keep (s : Checking) (row : ℕ) (entry : CommitEntry) : Checking :=
  match s.firstForSha.get? entry.commit with
  | some (previousRow, previousTitle) =>
    if previousTitle = entry.commitTitle then
      { s with
        warnings := s.warnings ++
          [{ row, message := "与第 " ++ toString previousRow ++ " 行重复，已保留首次出现的提交。" }] }
    else
      { s with
        errors := s.errors ++
          [{ row := some row
             field := "commit_title"
             message := "与第 " ++ toString previousRow ++
              " 行使用相同 commit_id 但 commit_title 不同。" }] }
  | none =>
    { s with
      firstForSha := s.firstForSha.set entry.commit (row, entry.commitTitle)
      normalized := s.normalized ++ [entry] }

def Checking.checkEntry (tables : UnicodeTables) (s : Checking) (row : ℕ)
    (members : List (CodePoints × JsonText.Value)) : Checking :=
  let commit := stripped (ChannelCredentialStore.get members "commit")
  let title := stripped (ChannelCredentialStore.get members "commit_title")
  if entryErrors row commit title = [] then s.keep row ⟨tables.lower commit, title⟩
  else { s with errors := s.errors ++ entryErrors row commit title }

def Checking.checkItem (tables : UnicodeTables) (s : Checking) (index : ℕ) : ImportItem → Checking
  | .value (.obj members) => s.checkEntry tables index members
  | .numbered row (.obj members) => s.checkEntry tables row members
  | .value _ => { s with errors := s.errors ++ [notAnEntry index] }
  | .numbered _ _ => { s with errors := s.errors ++ [notAnEntry index] }

def check (tables : UnicodeTables) (items : List ImportItem) : Checking :=
  (items.zipIdx 1).foldl (fun s item => s.checkItem tables item.2 item.1) {}

/-- `validate_commit_entries`, `none` when it raises. -/
def validateCommitEntries (tables : UnicodeTables) (items : List ImportItem) :
    Option CommitImportResult :=
  if MAX_COMMIT_IMPORT_ENTRIES < items.length then
    some { errors := [{ field := "entries", message := "提交条目不能超过 5000 条。" }] }
  else
    let checked := check tables items
    let errors :=
      if checked.normalized = [] ∧ checked.errors = [] then
        [{ field := "entries", message := "至少需要一条提交。" }]
      else checked.errors
    if errors = [] then
      (encode (serializeCommitEntries checked.normalized)).map fun bytes =>
        if MAX_COMMIT_IMPORT_BYTES < bytes.length then
          { errors := [{ field := "entries", message := "提交清单不能超过 1 MiB。" }]
            warnings := checked.warnings }
        else { entries := checked.normalized, warnings := checked.warnings }
    else some { entries := checked.normalized, errors, warnings := checked.warnings }

def normalizeHeader (tables : UnicodeTables) (value : CodePoints) : CodePoints :=
  (tables.lower (RuntimeSkills.strip value)).filter tables.isAlnum

def resolveHeaderColumns (tables : UnicodeTables) (row : List CodePoints) : Option (ℕ × ℕ) :=
  if row.length ≠ 2 then none
  else
    let normalized := row.map (normalizeHeader tables)
    let commitIndexes := normalized.findIdxs fun value => value ∈ COMMIT_ID_HEADER_ALIASES
    let titleIndexes := normalized.findIdxs fun value => value ∈ COMMIT_TITLE_HEADER_ALIASES
    match commitIndexes, titleIndexes with
    | [commitIndex], [titleIndex] => some (commitIndex, titleIndex)
    | _, _ => none

def decodeSig (content : List ℕ) : Option CodePoints :=
  (decode content).map fun t => if t.head? = some 0xFEFF then t.tail else t

/-- The text of a `csv.Error`. -/
def csvErrorText (delimiter : Delimiter) : CsvText.Error → String
  | .fieldTooLong => "field larger than field limit (131072)"
  | .unexpectedEnd => "unexpected end of data"
  | .expectedDelimiter =>
    match delimiter with
    | .csv => "',' expected after '\"'"
    | .tsv => "'\t' expected after '\"'"
  | .newLineInField =>
    "new-line character seen in unquoted field - do you need to open the file with newline=''?"

def numberedRows (rows : List (List CodePoints)) : List (ℕ × List CodePoints) :=
  ((rows.zipIdx 1).filter fun item => item.1.any fun cell => RuntimeSkills.strip cell ≠ []).map
    fun item => (item.2, item.1)

def withoutHeader (tables : UnicodeTables) (rows : List (ℕ × List CodePoints)) :
    ℕ × ℕ × List (ℕ × List CodePoints) :=
  match rows with
  | [] => (0, 1, [])
  | first :: rest =>
    match resolveHeaderColumns tables first.2 with
    | some (commitIndex, titleIndex) => (commitIndex, titleIndex, rest)
    | none => (0, 1, first :: rest)

def rawEntry (commitIndex titleIndex : ℕ) (item : ℕ × List CodePoints) : ImportItem :=
  .numbered item.1 (.obj [(text "commit", .str (item.2.getD commitIndex [])),
    (text "commit_title", .str (item.2.getD titleIndex []))])

def importRows (tables : UnicodeTables) (rows : List (List CodePoints)) :
    Option CommitImportResult :=
  let (commitIndex, titleIndex, rows) := withoutHeader tables (numberedRows rows)
  let errors := (rows.filter fun item => item.2.length ≠ 2).map fun item =>
    { row := some item.1, field := "row",
      message := "每行必须恰好包含 commit_id 和 commit_title 两列。" }
  let rawEntries := (rows.filter fun item => item.2.length = 2).map
    (rawEntry commitIndex titleIndex)
  (validateCommitEntries tables rawEntries).map fun validated =>
    { entries := validated.entries
      errors := errors ++ validated.errors
      warnings := validated.warnings
      rows := rows.map fun item =>
        { row := item.1, commit := item.2.getD commitIndex [],
          commitTitle := item.2.getD titleIndex [] } }

/-- `parse_commit_import`, `none` when it raises. -/
def parseCommitImport (tables : UnicodeTables) (content : List ℕ) (delimiter : Delimiter) :
    Option CommitImportResult :=
  if MAX_COMMIT_IMPORT_BYTES < content.length then
    some { errors := [{ field := "file", message := "导入内容不能超过 1 MiB。" }] }
  else
    match decodeSig content with
    | none => some { errors := [{ field := "file", message := "导入内容必须使用 UTF-8 编码。" }] }
    | some t =>
      match CsvText.read (dialect delimiter) FIELD_SIZE_LIMIT t with
      | .error error =>
        let format := match delimiter with
          | .csv => "CSV"
          | .tsv => "TSV"
        let message := format ++ " 格式错误：" ++ csvErrorText delimiter error
        some { errors := [{ field := "file", message }] }
      | .ok rows => importRows tables rows

end CommitImport

end WittyService

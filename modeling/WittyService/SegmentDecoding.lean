import WittyService.SegmentFences
import WittyService.SegmentLengths

/-! The chunks of a code block or a table read back: without the lines that stand in every chunk
they are the lines of the block. -/
namespace WittyService

def withoutOverhead (before after : List PyStr) (chunk : PyStr) : Option (List PyStr) :=
  ((PyStr.lines chunk).dropPrefix? before).bind fun rest =>
    if after <:+ rest then some (rest.take (rest.length - after.length)) else none

namespace Block

def before (block : Block) : List PyStr :=
  match block.kind with
  | .code => [(PyStr.lines block.text).headD []]
  | .table => tablePrefix block.text
  | .paragraph => []

def after (block : Block) : List PyStr :=
  match block.kind with
  | .code => [FENCE]
  | _ => []

def body (block : Block) : List PyStr :=
  match block.kind with
  | .code => codeBody block.text
  | .table => tableBody block.text
  | .paragraph => PyStr.lines block.text

def overhead (block : Block) : ℕ :=
  match block.kind with
  | .code => codeOverhead block.text
  | .table => tableOverhead block.text
  | .paragraph => 0

def decoded (block : Block) (chunks : List PyStr) : Option (List PyStr) :=
  (chunks.mapM (withoutOverhead block.before block.after)).map List.flatten

end Block

theorem closeGroup_lines {current : List PyStr} (h : ∀ l ∈ current, '\n' ∉ l) :
    (closeGroup current).flatMap PyStr.lines = current := by
  unfold closeGroup
  split_ifs with hnil
  · rw [hnil]
    rfl
  · rw [List.flatMap_singleton]
    exact lines_joinLines hnil h

variable {budget overhead limit : ℕ} {lines before after : List PyStr} {text : PyStr}
  {block : Block}

theorem groupLoop_lines (lines current : List PyStr) (currentLength : ℕ)
    (hlines : ∀ l ∈ lines, '\n' ∉ l ∧ l.length ≤ budget) (hcurrent : ∀ l ∈ current, '\n' ∉ l) :
    (groupLoop budget lines current currentLength).flatMap PyStr.lines = current ++ lines := by
  induction lines generalizing current currentLength with
  | nil =>
    rw [groupLoop, List.append_nil]
    exact closeGroup_lines hcurrent
  | cons line lines ih =>
    obtain ⟨⟨hline, hlength⟩, hrest⟩ := List.forall_mem_cons.mp hlines
    have hsingle : ∀ l ∈ [line], '\n' ∉ l := by simpa using hline
    rw [groupLoop, if_neg (Nat.not_lt.mpr hlength)]
    extract_lets addition
    split_ifs with hfull
    · rw [List.flatMap_cons, ih [line] _ hrest hsingle, lines_joinLines hfull.1 hcurrent]
      rfl
    · rw [ih (current ++ [line]) _ hrest, List.append_assoc]
      · rfl
      · exact List.forall_mem_append.mpr ⟨hcurrent, hsingle⟩

theorem groupLines_lines (h : ∀ l ∈ lines, '\n' ∉ l ∧ l.length ≤ budget) :
    (groupLines lines budget).flatMap PyStr.lines = lines := by
  apply groupLoop_lines lines [] 0 h
  simp

theorem withoutOverhead_append {middle : List PyStr} {chunk : PyStr}
    (h : PyStr.lines chunk = before ++ middle ++ after) :
    withoutOverhead before after chunk = some middle := by
  have hdrop : (PyStr.lines chunk).dropPrefix? before = some (middle ++ after) := by
    rw [List.dropPrefix?_eq_some_iff]
    exact ⟨before, by rw [h, List.append_assoc], by simp⟩
  rw [withoutOverhead, hdrop, Option.bind_some, if_pos (List.suffix_append middle after)]
  simp

theorem mapM_withoutOverhead {wrap : PyStr → PyStr}
    (h : ∀ group, PyStr.lines (wrap group) = before ++ PyStr.lines group ++ after)
    (groups : List PyStr) :
    (groups.map wrap).mapM (withoutOverhead before after) = some (groups.map PyStr.lines) := by
  induction groups with
  | nil => rfl
  | cons group groups ih =>
    rw [List.map_cons, List.mapM_cons, withoutOverhead_append (h group), ih]
    rfl

theorem codeChunk_lines {opening : PyStr} (h : '\n' ∉ opening) (group : PyStr) :
    PyStr.lines (opening ++ ['\n'] ++ group ++ ['\n'] ++ FENCE) =
      [opening] ++ PyStr.lines group ++ [FENCE] := by
  have htext : opening ++ ['\n'] ++ group ++ ['\n'] ++ FENCE =
      opening ++ '\n' :: (group ++ '\n' :: FENCE) := by simp
  have hfence : PyStr.lines FENCE = [FENCE] := by decide
  rw [htext, lines_append, lines_append, lines_of_newline_free h, hfence, List.append_assoc]

theorem tableChunk_lines {header : List PyStr} (h : ∀ l ∈ header, '\n' ∉ l) (group : PyStr) :
    PyStr.lines (PyStr.joinLines (header ++ PyStr.lines group)) =
      header ++ PyStr.lines group ++ [] := by
  have hlines : PyStr.lines group ≠ [] := List.splitOn_ne_nil _ _
  rw [List.append_nil]
  apply lines_joinLines (List.append_ne_nil_of_right_ne_nil _ hlines)
  exact List.forall_mem_append.mpr ⟨h, newline_not_mem_lines group⟩

theorem body_sublist (block : Block) : block.body.Sublist (PyStr.lines block.text) := by
  unfold Block.body
  cases block.kind with
  | paragraph => exact List.Sublist.refl _
  | table => exact List.drop_sublist _ _
  | code =>
    have hdrop := List.drop_sublist 1 (PyStr.lines block.text)
    rw [codeBody_closingLine] at hdrop
    exact (List.sublist_append_left _ _).trans hdrop

theorem body_newline_free (block : Block) : ∀ l ∈ block.body, '\n' ∉ l := by
  intro l hl
  exact newline_not_mem_lines block.text l ((body_sublist block).subset hl)

theorem fits_budget (h : ∀ l ∈ lines, overhead + l.length ≤ limit) :
    ∀ l ∈ lines, l.length ≤ max 1 (limit - overhead) := by
  intro l hl
  have hfit := h l hl
  omega

theorem splitCode_decoded (h : ∀ l ∈ codeBody text, codeOverhead text + l.length ≤ limit) :
    Block.decoded ⟨.code, text⟩ (splitCode text limit) = some (codeBody text) := by
  have hopening : '\n' ∉ (PyStr.lines text).headD [] := by
    apply newline_not_mem_lines text
    rw [lines_head text]
    exact List.mem_cons_self
  have hbudget : limit - ((PyStr.lines text).headD []).length - FENCE.length - 2 =
      limit - codeOverhead text := by
    unfold codeOverhead
    omega
  have hgroups := groupLines_lines fun l hl =>
    ⟨body_newline_free ⟨.code, text⟩ l hl, fits_budget h l hl⟩
  simp only [Block.decoded, Block.before, Block.after, splitCode, hbudget]
  rw [mapM_withoutOverhead (codeChunk_lines hopening), Option.map_some,
    ← List.flatMap_def]
  exact congrArg some hgroups

theorem splitTable_decoded (h : ∀ l ∈ tableBody text, tableOverhead text + l.length ≤ limit) :
    Block.decoded ⟨.table, text⟩ (splitTable text limit) = some (tableBody text) := by
  have hheader : ∀ l ∈ tablePrefix text, '\n' ∉ l := by
    intro l hl
    apply newline_not_mem_lines text
    rw [ tableBody_prefix]
    exact List.mem_append_left _ hl
  have hgroups := groupLines_lines fun l hl =>
    ⟨body_newline_free ⟨.table, text⟩ l hl, fits_budget h l hl⟩
  simp only [Block.decoded, Block.before, Block.after, splitTable]
  rw [mapM_withoutOverhead (tableChunk_lines hheader), Option.map_some,
    ← List.flatMap_def]
  exact congrArg some hgroups

theorem room_iff (hoverhead : overhead ≤ limit)
    (hlines : ∀ l ∈ lines, overhead + l.length ≤ limit) :
    Room lines overhead limit ↔ ¬(overhead = limit ∧ 2 ≤ lines.length) := by
  unfold Room
  rcases Nat.lt_or_eq_of_le hoverhead with hlt | rfl
  · have hne : overhead ≠ limit := Nat.ne_of_lt hlt
    simp [hlt, hne]
  · -- every line is empty here
    have hempty : ∀ l ∈ lines, l = [] := by
      intro l hl
      have hfit := hlines l hl
      apply List.length_eq_zero_iff.mp
      omega
    rcases lines with - | ⟨first, - | ⟨second, rest⟩⟩
    · simp
    · simpa using hempty
    · simp

/-- The chunks of a block decode back and none is too long. -/
structure Block.Recovered (block : Block) (limit : ℕ) : Prop where
  lines : block.decoded (splitBlock block limit) = some block.body
  within : ∀ chunk ∈ splitBlock block limit, chunk.length ≤ limit

/-- The block is one that is split although each of its lines fits a chunk. -/
structure Block.Splits (block : Block) (limit : ℕ) : Prop where
  kind : block.kind ≠ .paragraph
  long : limit < block.text.length
  overhead : block.overhead ≤ limit
  fits : ∀ l ∈ block.body, block.overhead + l.length ≤ limit

theorem Block.Splits.decoded (h : block.Splits limit) :
    block.decoded (splitBlock block limit) = some block.body := by
  obtain ⟨kind, text⟩ := block
  have hsplit : ¬ text.length ≤ limit := Nat.not_le.mpr h.long
  simp only [splitBlock, hsplit, if_false]
  cases kind with
  | paragraph => exact absurd rfl h.kind
  | code => exact splitCode_decoded h.fits
  | table => exact splitTable_decoded h.fits

theorem Block.Splits.roomy_iff (h : block.Splits limit) :
    block.Roomy limit ↔ Room block.body block.overhead limit := by
  obtain ⟨kind, text⟩ := block
  have hsplit : ¬ text.length ≤ limit := Nat.not_le.mpr h.long
  simp only [Block.Roomy, hsplit, false_or]
  cases kind with
  | paragraph => exact absurd rfl h.kind
  | code | table => rfl

/-- A block each line of which fits is always read back from its chunks, and the chunks are
within the limit unless the overhead fills it and there is a second line. -/
theorem recovered_iff (block : Block) (limit : ℕ) (h : block.Splits limit) :
    block.Recovered limit ↔ ¬(block.overhead = limit ∧ 2 ≤ block.body.length) := by
  have hwithin : (∀ chunk ∈ splitBlock block limit, chunk.length ≤ limit) ↔
      ¬(block.overhead = limit ∧ 2 ≤ block.body.length) := by
    rw [splitBlock_within, h.roomy_iff]
    exact room_iff h.overhead h.fits
  constructor
  · intro hrec
    exact hwithin.mp hrec.within
  · intro hcond
    exact ⟨h.decoded, hwithin.mpr hcond⟩

theorem two_chunks_recovered :
    Block.Recovered ⟨.code, ['`', '`', '`', '\n', 'a', '\n', 'b', '\n', '`', '`', '`']⟩ 9 := by
  apply (recovered_iff _ _ ⟨by decide, by decide, by decide, by decide⟩).mpr
  decide

/-- The two fences and their newlines fill a limit of eight, and the newline between two empty
lines is a ninth character. -/
theorem empty_lines_over_limit : ¬ ∀ (text : PyStr) (limit : ℕ), ∀ block ∈ iterBlocks text,
    block.Splits limit → block.Recovered limit := by
  intro h
  let text : PyStr := ['`', '`', '`', '\n', '\n', '\n', '`', '`', '`']
  have hblock : (⟨.code, text⟩ : Block) ∈ iterBlocks text := by decide
  have hrec := h text 8 _ hblock ⟨by decide, by decide, by decide, by decide⟩
  have hover := hrec.within ['`', '`', '`', '\n', '\n', '\n', '`', '`', '`'] (by decide)
  exact absurd hover (by decide)

end WittyService

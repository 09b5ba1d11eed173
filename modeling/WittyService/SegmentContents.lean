import WittyService.VisibleText

/-! What `split_text` keeps of a text, white space aside. -/
namespace WittyService

/-! The chunks of a block in parts: what comes from the text, and fences and table headers
that are put in once more. -/

inductive Part where
  | own (text : PyStr)
  | again (text : PyStr)

namespace Part

def text : Part → PyStr
  | .own text | .again text => text

def copied : Part → PyStr
  | .own text => visible text
  | .again _ => []

/-- A piece that comes from the text if `first`, and is put in again otherwise. -/
def mark (first : Bool) (text : PyStr) : Part := if first then .own text else .again text

@[simp] theorem own_text (t : PyStr) : (own t).text = t := rfl

@[simp] theorem again_text (t : PyStr) : (again t).text = t := rfl

@[simp] theorem own_copied (t : PyStr) : (own t).copied = visible t := rfl

@[simp] theorem again_copied (t : PyStr) : (again t).copied = [] := rfl

theorem mark_copied (first : Bool) (t : PyStr) :
    (mark first t).copied = if first then visible t else [] := by
  cases first <;> rfl

theorem copied_sublist (p : Part) : p.copied.Sublist (visible p.text) := by
  cases p with
  | own t => exact List.Sublist.refl _
  | again t => exact List.nil_sublist _

@[simp] theorem mark_text (first : Bool) (t : PyStr) : (mark first t).text = t := by
  cases first <;> rfl

end Part

def chunkText (parts : List Part) : PyStr := parts.flatMap Part.text

def chunkCopied (parts : List Part) : PyStr := parts.flatMap Part.copied

def codeClosed (text : PyStr) : Bool := ((PyStr.lines text).drop 1).getLast?.any startsFence

/-- The chunks of a code block: the first one has the opening fence of the text, and the last
one the closing fence, if there is one. -/
def codeParts (opening : PyStr) (closed : Bool) : Bool → List PyStr → List (List Part)
  | _, [] => []
  | first, [group] =>
    [[.mark first opening, .own ('\n' :: group ++ ['\n']), .mark closed FENCE]]
  | first, group :: groups =>
    [.mark first opening, .own ('\n' :: group ++ ['\n']), .again FENCE] ::
      codeParts opening closed false groups

def tableParts (header : List PyStr) : Bool → List PyStr → List (List Part)
  | _, [] => []
  | first, group :: groups =>
    [.mark first (PyStr.joinLines header), .own ('\n' :: group)] ::
      tableParts header false groups

/-- `splitBlock` in parts. -/
def blockParts (block : Block) (maxLength : ℕ) : List (List Part) :=
  if block.text.length ≤ maxLength then [[.own block.text]]
  else
    match block.kind with
    | .code =>
      let opening := (PyStr.lines block.text).headD []
      let budget := max 1 (maxLength - opening.length - FENCE.length - 2)
      codeParts opening (codeClosed block.text) true (groupLines (codeBody block.text) budget)
    | .table =>
      let overhead := (PyStr.joinLines (tablePrefix block.text)).length + 1
      tableParts (tablePrefix block.text) true
        (groupLines (tableBody block.text) (max 1 (maxLength - overhead)))
    | .paragraph => (splitParagraph block.text maxLength).map fun chunk => [.own chunk]

theorem codeParts_text (opening : PyStr) (closed first : Bool) (groups : List PyStr) :
    (codeParts opening closed first groups).map chunkText =
      groups.map fun group => opening ++ ['\n'] ++ group ++ ['\n'] ++ FENCE := by
  induction groups generalizing first with
  | nil => rfl
  | cons group groups ih =>
    cases groups with
    | nil => simp [codeParts, chunkText]
    | cons next rest =>
      rw [codeParts, List.map_cons, ih]
      · simp [chunkText]
      · exact List.cons_ne_nil _ _

variable {header lines groups paragraph : List PyStr} {first : Bool} {line text : PyStr}
  {maxLength : ℕ}

theorem joinLines_append (hh : header ≠ []) (hl : lines ≠ []) :
    PyStr.joinLines (header ++ lines) =
      PyStr.joinLines header ++ '\n' :: PyStr.joinLines lines := by
  induction header with
  | nil => exact absurd rfl hh
  | cons line header ih =>
    cases header with
    | nil =>
      obtain ⟨next, rest, rfl⟩ := List.exists_cons_of_ne_nil hl
      simp [PyStr.joinLines, List.intercalate]
    | cons next rest =>
      have hrest := ih (List.cons_ne_nil _ _)
      simp only [PyStr.joinLines, List.intercalate, List.cons_append, List.intersperse,
        List.flatten_cons] at hrest ⊢
      rw [hrest]
      simp

theorem tableParts_text (hheader : header ≠ []) (first : Bool)
    (groups : List PyStr) : (tableParts header first groups).map chunkText =
      groups.map fun group => PyStr.joinLines (header ++ PyStr.lines group) := by
  induction groups generalizing first with
  | nil => rfl
  | cons group groups ih =>
    have hlines : PyStr.lines group ≠ [] := List.splitOn_ne_nil _ _
    have hgroup : PyStr.joinLines (PyStr.lines group) = group := List.intercalate_splitOn _
    rw [tableParts, List.map_cons, ih, List.map_cons, joinLines_append hheader hlines, hgroup]
    simp [chunkText]

theorem tablePrefix_ne_nil (text : PyStr) : tablePrefix text ≠ [] := by
  have hlines : PyStr.lines text ≠ [] := List.splitOn_ne_nil _ _
  unfold tablePrefix
  split
  · split_ifs <;> exact List.cons_ne_nil _ _
  · exact hlines

theorem blockParts_text (block : Block) (maxLength : ℕ) :
    (blockParts block maxLength).map chunkText = splitBlock block maxLength := by
  unfold blockParts splitBlock
  split_ifs
  · simp [chunkText]
  · cases block.kind with
    | code => exact codeParts_text _ _ _ _
    | table => exact tableParts_text (tablePrefix_ne_nil _) _ _
    | paragraph =>
      rw [List.map_map]
      simp [Function.comp_def, chunkText]

theorem codeParts_copied {opening : PyStr} {closed : Bool}
    (h : groups ≠ []) : (codeParts opening closed first groups).flatMap chunkCopied =
      (if first then visible opening else []) ++ groups.flatMap visible ++
        (if closed then FENCE else []) := by
  induction groups generalizing first with
  | nil => exact absurd rfl h
  | cons group groups ih =>
    have hgroup : visible ('\n' :: (group ++ ['\n'])) = visible group := by
      rw [← List.singleton_append, visible_append, visible_append]
      simp [visible_newline]
    cases groups with
    | nil =>
      cases first <;> cases closed <;>
        simp [codeParts, chunkCopied, Part.mark_copied, hgroup] <;> rfl
    | cons next rest =>
      rw [codeParts, List.flatMap_cons, ih (List.cons_ne_nil _ _)]
      · cases first <;> simp [chunkCopied, Part.mark_copied, hgroup]
      · exact List.cons_ne_nil _ _

theorem tableParts_copied (h : groups ≠ []) : (tableParts header first groups).flatMap chunkCopied =
      (if first then header.flatMap visible else []) ++ groups.flatMap visible := by
  induction groups generalizing first with
  | nil => exact absurd rfl h
  | cons group groups ih =>
    have hgroup : visible ('\n' :: group) = visible group := by
      rw [← List.singleton_append, visible_append, visible_newline, List.nil_append]
    have hrest : (tableParts header false groups).flatMap chunkCopied =
        groups.flatMap visible := by
      cases groups with
      | nil => rfl
      | cons next rest => exact ih (List.cons_ne_nil _ _)
    rw [tableParts, List.flatMap_cons, hrest]
    cases first <;> simp [chunkCopied, Part.mark_copied, hgroup, visible_joinLines]

theorem lines_head (text : PyStr) :
    PyStr.lines text = (PyStr.lines text).headD [] :: (PyStr.lines text).drop 1 := by
  have hlines : PyStr.lines text ≠ [] := List.splitOn_ne_nil _ _
  cases h : PyStr.lines text with
  | nil => exact absurd h hlines
  | cons line rest => rfl

def closingLine (text : PyStr) : List PyStr :=
  if codeClosed text then ((PyStr.lines text).drop 1).getLast?.toList else []

theorem codeBody_closingLine (text : PyStr) :
    (PyStr.lines text).drop 1 = codeBody text ++ closingLine text := by
  unfold codeBody closingLine codeClosed
  dsimp only
  cases hlast : ((PyStr.lines text).drop 1).getLast? with
  | none => simp
  | some l =>
    by_cases hfence : startsFence l = true
    · simp only [Option.any_some, hfence, if_true, Option.toList_some]
      exact (List.dropLast_append_getLast? l hlast).symm
    · simp [hfence]

theorem visible_code (text : PyStr) : visible text =
    visible ((PyStr.lines text).headD []) ++
      ((codeBody text).flatMap visible ++ (closingLine text).flatMap visible) := by
  rw [← visible_lines, lines_head, List.flatMap_cons, codeBody_closingLine, List.flatMap_append]
  rfl

theorem visible_fence (h : startsFence line = true) :
    ∃ rest, visible line = FENCE ++ rest := by
  obtain ⟨rest, hrest⟩ := List.isPrefixOf_iff_prefix.mp h
  refine ⟨visible rest, ?_⟩
  rw [← visible_strip, ← hrest, visible_append]
  rfl

theorem tableBody_prefix (text : PyStr) :
    PyStr.lines text = tablePrefix text ++ tableBody text := by
  unfold tableBody
  have hprefix : tablePrefix text <+: PyStr.lines text := by
    unfold tablePrefix
    split
    · rename_i header second rest hlines
      rw [hlines]
      split_ifs
      · exact ⟨rest, rfl⟩
      · exact ⟨second :: rest, rfl⟩
    · exact ⟨[], List.append_nil _⟩
  obtain ⟨rest, hrest⟩ := hprefix
  conv_rhs => rw [← hrest]
  rw [List.drop_left, hrest]

/-- The block fits one segment, or it has a line between its fences, or behind its header, and
nothing visible behind its closing fence. -/
def Block.Intact (block : Block) (maxLength : ℕ) : Prop :=
  block.text.length ≤ maxLength ∨
    match block.kind with
    | .code => codeBody block.text ≠ [] ∧ ∀ l ∈ closingLine block.text, visible l = FENCE
    | .table => tableBody block.text ≠ []
    | .paragraph => True

def blockCopied (block : Block) (maxLength : ℕ) : PyStr :=
  (blockParts block maxLength).flatMap chunkCopied

section

variable {text : PyStr} {maxLength : ℕ} (hlong : ¬ text.length ≤ maxLength)
include hlong

theorem codeBlock_copied (hbody : codeBody text ≠ []) : blockCopied ⟨.code, text⟩ maxLength =
      visible ((PyStr.lines text).headD []) ++
        ((codeBody text).flatMap visible ++ if codeClosed text then FENCE else []) := by
  unfold blockCopied blockParts
  rw [if_neg hlong]
  rw [codeParts_copied fun hnil => hbody ((groupLines_eq_nil_iff _).mp hnil),
    flatMap_groupLines (by omega), if_pos rfl, List.append_assoc]

theorem tableBlock_copied (hbody : tableBody text ≠ [])
    : blockCopied ⟨.table, text⟩ maxLength = visible text := by
  unfold blockCopied blockParts
  rw [if_neg hlong]
  rw [tableParts_copied fun hnil => hbody ((groupLines_eq_nil_iff _).mp hnil),
    flatMap_groupLines (by omega), if_pos rfl, ← List.flatMap_append, ← tableBody_prefix,
    visible_lines]

end

theorem emptyBlock_copied {block : Block} (hlong : ¬ block.text.length ≤ maxLength)
    (h : block.kind = .code ∧ codeBody block.text = [] ∨
      block.kind = .table ∧ tableBody block.text = []) : blockCopied block maxLength = [] := by
  unfold blockCopied blockParts
  rw [if_neg hlong]
  rcases h with ⟨hkind, hbody⟩ | ⟨hkind, hbody⟩
  · rw [hkind]
    rw [hbody]
    rfl
  · rw [hkind]
    rw [hbody]
    rfl

theorem closingLine_visible (h : ∀ l ∈ closingLine text, visible l = FENCE) :
    (closingLine text).flatMap visible = if codeClosed text then FENCE else [] := by
  unfold closingLine codeClosed at *
  cases hlast : ((PyStr.lines text).drop 1).getLast? with
  | none => simp
  | some l =>
    rw [hlast] at h
    by_cases hfence : startsFence l = true
    · have hl : visible l = FENCE := h l (by simp [hfence])
      simp [hfence, hl]
    · simp [hfence]

theorem closingLine_sublist (text : PyStr) :
    (if codeClosed text then FENCE else []).Sublist ((closingLine text).flatMap visible) := by
  unfold closingLine codeClosed at *
  cases hlast : ((PyStr.lines text).drop 1).getLast? with
  | none => simp
  | some l =>
    by_cases hfence : startsFence l = true
    · obtain ⟨rest, hrest⟩ := visible_fence hfence
      simp only [Option.any_some, hfence, if_true, Option.toList_some, List.flatMap_singleton]
      rw [hrest]
      exact List.sublist_append_left _ _
    · simp [hfence]

theorem closingLine_visible_iff (text : PyStr) :
    (closingLine text).flatMap visible = (if codeClosed text then FENCE else []) ↔
      ∀ l ∈ closingLine text, visible l = FENCE := by
  refine ⟨fun h l hl => ?_, closingLine_visible⟩
  unfold closingLine at h hl
  by_cases hclosed : codeClosed text = true
  · rw [if_pos hclosed] at h hl
    cases hlast : ((PyStr.lines text).drop 1).getLast? with
    | none =>
      rw [hlast] at hl
      cases hl
    | some l' =>
      rw [hlast] at h hl
      rw [List.mem_singleton.mp hl]
      simpa [hclosed] using h
  · rw [if_neg hclosed] at hl
    cases hl

section

variable {block : Block} {maxLength : ℕ}

theorem paragraph_copied (hmax : 0 < maxLength) (hkind : block.kind = .paragraph) :
    (blockParts block maxLength).flatMap (fun parts => visible (chunkText parts)) =
      visible block.text ∧ blockCopied block maxLength = visible block.text := by
  unfold blockCopied blockParts
  split_ifs
  · simp [chunkText, chunkCopied]
  · rw [hkind]
    have hsplit := flatMap_splitParagraph hmax block.text
    simp only [List.flatMap_map]
    simp [chunkText, chunkCopied, hsplit]

theorem shortBlock_copied (h : block.text.length ≤ maxLength) :
    blockCopied block maxLength = visible block.text := by
  unfold blockCopied blockParts
  rw [if_pos h]
  simp [chunkCopied]

theorem blockCopied_sublist (hmax : 0 < maxLength) :
    (blockCopied block maxLength).Sublist (visible block.text) := by
  obtain ⟨kind, text⟩ := block
  by_cases hlong : text.length ≤ maxLength
  · rw [shortBlock_copied hlong]
  cases kind with
  | paragraph => rw [(paragraph_copied hmax rfl).2]
  | code =>
    by_cases hbody : codeBody text = []
    · rw [emptyBlock_copied hlong (.inl ⟨rfl, hbody⟩)]
      exact List.nil_sublist _
    · rw [codeBlock_copied hlong hbody, visible_code text]
      have hclosing := (List.Sublist.refl ((codeBody text).flatMap visible)).append
        (closingLine_sublist text)
      exact (List.Sublist.refl _).append hclosing
  | table =>
    by_cases hbody : tableBody text = []
    · rw [emptyBlock_copied hlong (.inr ⟨rfl, hbody⟩)]
      exact List.nil_sublist _
    · rw [tableBlock_copied hlong hbody]

theorem blockCopied_eq_iff (hmax : 0 < maxLength)
    (hvisible : block.kind ≠ .paragraph → visible block.text ≠ []) :
    blockCopied block maxLength = visible block.text ↔ block.Intact maxLength := by
  obtain ⟨kind, text⟩ := block
  unfold Block.Intact
  by_cases hlong : text.length ≤ maxLength
  · exact iff_of_true (shortBlock_copied hlong) (.inl hlong)
  simp only [hlong, false_or]
  cases kind with
  | paragraph => exact iff_of_true (paragraph_copied hmax rfl).2 trivial
  | code =>
    by_cases hbody : codeBody text = []
    · rw [emptyBlock_copied hlong (.inl ⟨rfl, hbody⟩)]
      exact iff_of_false (hvisible nofun).symm fun h => h.1 hbody
    · rw [codeBlock_copied hlong hbody, visible_code text, List.append_cancel_left_eq,
        List.append_cancel_left_eq, eq_comm, closingLine_visible_iff]
      exact (and_iff_right hbody).symm
  | table =>
    by_cases hbody : tableBody text = []
    · rw [emptyBlock_copied hlong (.inr ⟨rfl, hbody⟩)]
      exact iff_of_false (hvisible nofun).symm fun h => h hbody
    · exact iff_of_true (tableBlock_copied hlong hbody) hbody

end

theorem flushParagraph_kind :
    ∀ b ∈ flushParagraph paragraph, b.kind = .paragraph := by
  intro b hb
  unfold flushParagraph at hb
  dsimp only at hb
  split_ifs at hb
  · cases hb
  · rw [List.mem_singleton.mp hb]

theorem visible_tableRow (h : startsTableRow line = true) : visible line ≠ [] := by
  obtain ⟨rest, hrest⟩ := List.isPrefixOf_iff_prefix.mp h
  rw [← visible_strip, ← hrest, visible_append]
  exact List.cons_ne_nil _ _

theorem blocksLoop_head {n : ℕ} :
    ∀ b ∈ blocksLoop n lines paragraph, b.kind = .paragraph ∨
      ∃ line ∈ lines, (startsFence line = true ∨ startsTableRow line = true) ∧
        ∃ body, b.text = PyStr.joinLines (line :: body) := by
  induction n generalizing lines paragraph with
  | zero => exact fun b hb => .inl (flushParagraph_kind b hb)
  | succ n ih =>
    cases lines with
    | nil => exact fun b hb => .inl (flushParagraph_kind b hb)
    | cons line rest =>
      -- a block of the lines behind the first one
      have hrest : ∀ {later : List PyStr} {open_ : List PyStr}, (∀ l ∈ later, l ∈ rest) →
          ∀ b ∈ blocksLoop n later open_, b.kind = .paragraph ∨
            ∃ l ∈ line :: rest, (startsFence l = true ∨ startsTableRow l = true) ∧
              ∃ body, b.text = PyStr.joinLines (l :: body) := by
        intro later open_ hlater b hb
        rcases ih b hb with hkind | ⟨l, hl, hstarts, hbody⟩
        · exact .inl hkind
        · exact .inr ⟨l, List.mem_cons_of_mem _ (hlater l hl), hstarts, hbody⟩
      intro b hb
      simp only [blocksLoop] at hb
      split_ifs at hb with hfence htable hblank
      · rcases List.mem_append.mp hb with hb | hb
        · exact .inl (flushParagraph_kind b hb)
        rcases List.mem_cons.mp hb with rfl | hb
        · exact .inr ⟨line, List.mem_cons_self, .inl hfence, _, rfl⟩
        · refine hrest (fun l hl => ?_) b hb
          exact (List.dropWhile_suffix _).subset (List.mem_of_mem_drop hl)
      · rcases List.mem_append.mp hb with hb | hb
        · exact .inl (flushParagraph_kind b hb)
        rcases List.mem_cons.mp hb with rfl | hb
        · exact .inr ⟨line, List.mem_cons_self, .inr htable, _, rfl⟩
        · exact hrest (fun l hl => (List.dropWhile_suffix _).subset hl) b hb
      · rcases List.mem_append.mp hb with hb | hb
        · exact .inl (flushParagraph_kind b hb)
        · exact hrest (fun l hl => hl) b hb
      · exact hrest (fun l hl => hl) b hb

theorem iterBlocks_visible {b : Block} (hb : b ∈ iterBlocks text)
    (hkind : b.kind ≠ .paragraph) : visible b.text ≠ [] := by
  obtain ⟨line, -, hstarts, body, hbody⟩ := (blocksLoop_head b hb).resolve_left hkind
  rw [hbody, visible_joinLines, List.flatMap_cons]
  have hline : visible line ≠ [] := by
    rcases hstarts with hfence | htable
    · obtain ⟨rest, hrest⟩ := visible_fence hfence
      rw [hrest]
      exact List.cons_ne_nil _ _
    · exact visible_tableRow htable
  exact List.append_ne_nil_of_left_ne_nil hline _

theorem iterBlocks_paragraphs
    (h : ∀ line ∈ PyStr.lines text, startsFence line = false ∧ startsTableRow line = false) :
    ∀ b ∈ iterBlocks text, b.kind = .paragraph := by
  intro b hb
  rcases blocksLoop_head b hb with hkind | ⟨line, hline, hstarts, -⟩
  · exact hkind
  · obtain ⟨hfence, htable⟩ := h line hline
    rw [hfence, htable] at hstarts
    rcases hstarts with h | h <;> cases h

theorem flatMap_eq_iff_of_sublist {α β : Type*} {f g : α → List β} {as : List α}
    (h : ∀ a ∈ as, (f a).Sublist (g a)) :
    as.flatMap f = as.flatMap g ↔ ∀ a ∈ as, f a = g a := by
  induction as with
  | nil => simp
  | cons a as ih =>
    have hhead : (f a).Sublist (g a) := h a List.mem_cons_self
    have htail : ∀ b ∈ as, (f b).Sublist (g b) := fun b hb => h b (List.mem_cons_of_mem _ hb)
    constructor
    · intro heq
      have hsub : (as.flatMap f).length ≤ (as.flatMap g).length := by
        exact (List.Sublist.flatMap_right as htail).length_le
      have hlen : (f a).length + (as.flatMap f).length =
          (g a).length + (as.flatMap g).length := by
        have hlength := congrArg List.length heq
        simpa only [List.flatMap_cons, List.length_append] using hlength
      have hle : (f a).length ≤ (g a).length := hhead.length_le
      have ha : f a = g a := hhead.eq_of_length (by omega)
      rw [List.flatMap_cons, List.flatMap_cons, ha, List.append_cancel_left_eq] at heq
      exact List.forall_mem_cons.mpr ⟨ha, (ih htail).mp heq⟩
    · intro hall
      obtain ⟨ha, has⟩ := List.forall_mem_cons.mp hall
      rw [List.flatMap_cons, List.flatMap_cons, ha, (ih htail).mpr has]

def textParts (text : PyStr) (maxLength : ℕ) : List (List Part) :=
  (iterBlocks text).flatMap fun block => blockParts block maxLength

theorem textParts_copied (text : PyStr) (maxLength : ℕ) :
    (textParts text maxLength).flatMap chunkCopied =
      (iterBlocks text).flatMap fun block => blockCopied block maxLength := by
  rw [textParts, List.flatMap_assoc]
  rfl

theorem textParts_text (text : PyStr) (maxLength : ℕ) :
    (textParts text maxLength).map chunkText =
      (iterBlocks text).flatMap fun block => splitBlock block maxLength := by
  simp only [textParts, List.map_flatMap, blockParts_text]

theorem textParts_visible (hmax : 0 < maxLength)
    (hkind : ∀ b ∈ iterBlocks text, b.kind = .paragraph) :
    (textParts text maxLength).flatMap (fun parts => visible (chunkText parts)) =
      visible text := by
  have hblocks : ∀ blocks : List Block, (∀ b ∈ blocks, b.kind = .paragraph) →
      blocks.flatMap (fun b => (blockParts b maxLength).flatMap
        fun parts => visible (chunkText parts)) = blocks.flatMap fun b => visible b.text := by
    intro blocks hall
    exact List.flatMap_congr fun b hb => (paragraph_copied hmax (hall b hb)).1
  rw [textParts, List.flatMap_assoc, hblocks _ hkind, flatMap_iterBlocks]

theorem splitText_visible {maxLength : Int} (hmax : 1 ≤ maxLength) :
    (splitText text maxLength).flatMap visible =
      (textParts text maxLength.toNat).flatMap fun parts => visible (chunkText parts) := by
  have hlimit : ¬ maxLength ≤ 0 := by omega
  simp only [splitText, hlimit, if_false]
  split_ifs with hblank
  · have hnil : visible text = [] := visible_of_blank hblank
    have hkind : ∀ b ∈ iterBlocks text, b.kind = .paragraph := by
      intro b hb
      by_contra hne
      have hall := flatMap_iterBlocks text
      rw [hnil, List.flatMap_eq_nil_iff] at hall
      exact iterBlocks_visible hb hne (hall b hb)
    rw [textParts_visible (by omega) hkind, hnil]
    rfl
  · rw [flatMap_packLoop, ← textParts_text, List.flatMap_map]
    rfl

/-- The segments consist of the visible characters of the text, in order, and of fences and
table headers that are put in again. -/
structure Lossless (text : PyStr) (maxLength : Int) : Prop where
  copied : (textParts text maxLength.toNat).flatMap chunkCopied = visible text
  kept : (visible text).Sublist ((splitText text maxLength).flatMap visible)

theorem chunkCopied_sublist (parts : List Part) :
    (chunkCopied parts).Sublist (visible (chunkText parts)) := by
  induction parts with
  | nil => exact List.Sublist.refl _
  | cons p parts ih =>
    rw [chunkCopied, chunkText, List.flatMap_cons, List.flatMap_cons, visible_append]
    exact p.copied_sublist.append ih

theorem lossless_iff_copied {maxLength : Int} (hmax : 1 ≤ maxLength) :
    Lossless text maxLength ↔
      (textParts text maxLength.toNat).flatMap chunkCopied = visible text := by
  refine ⟨Lossless.copied, fun h => ⟨h, ?_⟩⟩
  rw [splitText_visible hmax, ← h]
  exact List.Sublist.flatMap_right _ fun parts _ => chunkCopied_sublist parts

/-- Nothing visible is lost exactly when each block that is too long for one segment has a line
of its own and a closing line that is nothing but the fence. Where no line is a fence or a
table row, the segments are the text, white space aside. -/
theorem split_lossless_iff (text : PyStr) (maxLength : Int) (hmax : 1 ≤ maxLength) :
    (Lossless text maxLength ↔ ∀ b ∈ iterBlocks text, b.Intact maxLength.toNat) ∧
      ((∀ line ∈ PyStr.lines text, startsFence line = false ∧ startsTableRow line = false) →
        (splitText text maxLength).flatMap visible = visible text) := by
  have hpos : 0 < maxLength.toNat := by omega
  constructor
  · rw [lossless_iff_copied hmax, textParts_copied, ← flatMap_iterBlocks text,
      flatMap_eq_iff_of_sublist fun b _ => blockCopied_sublist hpos]
    exact forall₂_congr fun b hb => blockCopied_eq_iff hpos (iterBlocks_visible hb)
  · intro hlines
    rw [splitText_visible hmax, textParts_visible hpos (iterBlocks_paragraphs hlines)]

theorem two_rows_kept : Lossless ['|', 'a', '\n', '|', 'b'] 4 ∧
    (splitText ['a', ' ', 'b'] 2).flatMap visible = ['a', 'b'] := by
  refine ⟨(split_lossless_iff _ 4 (by decide)).1.mpr fun b hb => ?_, ?_⟩
  · have hblocks : iterBlocks ['|', 'a', '\n', '|', 'b'] =
        [⟨.table, ['|', 'a', '\n', '|', 'b']⟩] := by decide
    rw [hblocks] at hb
    rw [List.mem_singleton.mp hb]
    exact .inr (show tableBody ['|', 'a', '\n', '|', 'b'] ≠ [] by decide)
  · exact (split_lossless_iff ['a', ' ', 'b'] 2 (by decide)).2 (by decide)

/-- A table row that is longer than a segment and has no row below it disappears. -/
theorem lone_row_lost : ¬ ∀ (text : PyStr) (maxLength : Int), 1 ≤ maxLength →
    (visible text).Sublist ((splitText text maxLength).flatMap visible) := by
  intro h
  have hlost : splitText ['|', 'a', 'b'] 2 = [] := by decide
  have hkept := h ['|', 'a', 'b'] 2 (by decide)
  rw [hlost] at hkept
  exact absurd hkept (by decide)

end WittyService

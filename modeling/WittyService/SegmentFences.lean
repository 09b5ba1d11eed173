import Mathlib.Algebra.Group.Nat.Even
import WittyService.SegmentContents

/-! The fences in the segments of `split_text`, counted by lines. A segment gets an odd number
of them only from a piece that a cut has left with the backticks of the text in front. -/
namespace WittyService

/-- The lines that `_iter_blocks` takes for a fence. -/
def fenceLines (text : PyStr) : ℕ := (PyStr.lines text).countP startsFence

theorem lines_append (s t : PyStr) :
    PyStr.lines (s ++ '\n' :: t) = PyStr.lines s ++ PyStr.lines t :=
  List.splitOn_append_cons_self s t

variable {line s t text opening group : PyStr} {lines paragraph : List PyStr}
  {budget n maxLength : ℕ} {block : Block} {run : List Piece}

theorem lines_of_newline_free (h : '\n' ∉ line) : PyStr.lines line = [line] :=
  List.splitOn_eq_singleton h

theorem lines_newline (t : PyStr) : PyStr.lines ('\n' :: t) = [] :: PyStr.lines t :=
  lines_append [] t

theorem lines_cons {c : Char} (hc : c ≠ '\n') (t : PyStr) :
    PyStr.lines (c :: t) = (PyStr.lines t).modifyHead (c :: ·) := by
  rw [PyStr.lines, List.splitOn_cons_eq_if_modifyHead, if_neg (by simpa using hc)]
  rfl

theorem newline_not_mem_lines (text : PyStr) : ∀ line ∈ PyStr.lines text, '\n' ∉ line := by
  induction text with
  | nil => decide
  | cons c text ih =>
    by_cases hc : c = '\n'
    · subst hc
      rw [lines_newline]
      exact List.forall_mem_cons.mpr ⟨by simp, ih⟩
    · rw [lines_cons hc, lines_head, List.modifyHead_cons]
      rw [lines_head] at ih
      obtain ⟨hhead, htail⟩ := List.forall_mem_cons.mp ih
      refine List.forall_mem_cons.mpr ⟨?_, htail⟩
      simp only [List.mem_cons, not_or]
      exact ⟨Ne.symm hc, hhead⟩

theorem lines_joinLines (h : lines ≠ []) (hlines : ∀ l ∈ lines, '\n' ∉ l) :
    PyStr.lines (PyStr.joinLines lines) = lines :=
  List.splitOn_intercalate '\n' hlines h

theorem lines_of_leading (h : s <+: t) : (PyStr.lines s).headD [] <+: (PyStr.lines t).headD [] ∧
      ∀ l ∈ (PyStr.lines s).tail, ∃ l' ∈ (PyStr.lines t).tail, l <+: l' := by
  induction s generalizing t with
  | nil => exact ⟨List.nil_prefix, by simp [PyStr.lines]⟩
  | cons c s ih =>
    obtain ⟨r, rfl⟩ := h
    obtain ⟨hhead, htail⟩ := ih (List.prefix_append s r)
    rw [List.cons_append]
    by_cases hc : c = '\n'
    · subst hc
      rw [lines_newline, lines_newline]
      refine ⟨List.nil_prefix, ?_⟩
      rw [List.tail_cons, List.tail_cons, lines_head s, lines_head (s ++ r)]
      intro l hl
      rcases List.mem_cons.mp hl with rfl | hl
      · exact ⟨_, List.mem_cons_self, hhead⟩
      · rw [List.drop_one] at hl
        obtain ⟨l', hl', hprefix⟩ := htail l hl
        exact ⟨l', List.mem_cons_of_mem _ (by rwa [List.drop_one]), hprefix⟩
    · rw [lines_cons hc, lines_cons hc, lines_head s, lines_head (s ++ r), List.modifyHead_cons,
        List.modifyHead_cons]
      refine ⟨List.cons_prefix_cons.mpr ⟨rfl, hhead⟩, ?_⟩
      simpa only [List.tail_cons, List.drop_one] using htail

theorem lines_of_suffix (h : s <:+ t) : (PyStr.lines s).tail ⊆ (PyStr.lines t).tail := by
  obtain ⟨r, rfl⟩ := h
  induction r with
  | nil => exact List.Subset.refl _
  | cons c r ih =>
    rw [List.cons_append]
    by_cases hc : c = '\n'
    · subst hc
      rw [lines_newline, List.tail_cons]
      exact fun l hl => List.mem_of_mem_tail (ih hl)
    · rw [lines_cons hc, lines_head (r ++ s), List.modifyHead_cons, List.tail_cons,
        List.drop_one]
      exact ih

theorem lines_lstripNewlines (text : PyStr) :
    PyStr.lines (PyStr.lstripNewlines text) ⊆ PyStr.lines text := by
  induction text with
  | nil => exact List.Subset.refl _
  | cons c text ih =>
    by_cases hc : c = '\n'
    · subst hc
      rw [lines_newline, PyStr.lstripNewlines, List.dropWhile_cons_of_pos (by decide)]
      exact List.subset_cons_of_subset _ ih
    · rw [PyStr.lstripNewlines, List.dropWhile_cons_of_neg (by simpa using hc)]
      exact List.Subset.refl _

theorem startsFence_iff (line : PyStr) :
    startsFence line = true ↔ FENCE <+: line.dropWhile pyIsSpace := by
  rw [startsFence, List.isPrefixOf_iff_prefix, PyStr.strip, PyStr.lstrip]
  generalize line.dropWhile pyIsSpace = rest
  refine ⟨fun h => h.trans (List.rdropWhile_prefix pyIsSpace rest), ?_⟩
  rintro ⟨tail, rfl⟩
  have hfence : FENCE.reverse.dropWhile pyIsSpace = FENCE.reverse := by decide
  rw [PyStr.rstrip, List.rdropWhile, List.reverse_append, List.dropWhile_append, hfence]
  split_ifs
  · have hreverse : FENCE.reverse.reverse = FENCE := List.reverse_reverse FENCE
    exact hreverse ▸ List.prefix_rfl
  · rw [List.reverse_append, List.reverse_reverse]
    exact List.prefix_append ..

theorem startsFence_of_prefix (h : s <+: t) (ht : startsFence t = false) :
    startsFence s = false := by
  by_contra hs
  rw [Bool.not_eq_false, startsFence_iff] at hs
  obtain ⟨rest, rfl⟩ := h
  have hnonempty : s.dropWhile pyIsSpace ≠ [] := by
    intro hnil
    rw [hnil] at hs
    exact absurd hs (by decide)
  have hstarts : startsFence (s ++ rest) = true := by
    rw [startsFence_iff, List.dropWhile_append, if_neg (by simpa using hnonempty)]
    exact hs.trans (List.prefix_append ..)
  rw [hstarts] at ht
  cases ht

theorem startsFence_of_tableRow (h : startsTableRow line = true) :
    startsFence line = false := by
  by_contra hfence
  rw [Bool.not_eq_false] at hfence
  obtain ⟨row, hrow⟩ := List.isPrefixOf_iff_prefix.mp h
  obtain ⟨rest, hrest⟩ := List.isPrefixOf_iff_prefix.mp hfence
  rw [← hrow] at hrest
  cases hrest

theorem fenceLines_append (s t : PyStr) :
    fenceLines (s ++ '\n' :: t) = fenceLines s + fenceLines t := by
  rw [fenceLines, lines_append, List.countP_append]
  rfl

theorem fenceLines_joinLines (h : lines ≠ []) (hlines : ∀ l ∈ lines, '\n' ∉ l) :
    fenceLines (PyStr.joinLines lines) = lines.countP startsFence := by
  rw [fenceLines, lines_joinLines h hlines]

def tornFence (piece : PyStr) : Bool := startsFence ((PyStr.lines piece).headD [])

theorem fenceLines_of_tail {piece : PyStr}
    (h : ∀ l ∈ (PyStr.lines piece).tail, startsFence l = false) :
    fenceLines piece = if tornFence piece then 1 else 0 := by
  have htail : (PyStr.lines piece).tail.countP startsFence = 0 := by
    rw [List.countP_eq_zero]
    intro l hl
    simp [h l hl]
  rw [fenceLines, lines_head, List.countP_cons, List.drop_one, htail, Nat.zero_add]
  rfl

theorem hardSplitLoop_newline_free (h : '\n' ∉ line) :
    ∀ piece ∈ hardSplitLoop budget n line, '\n' ∉ piece := by
  induction n generalizing line with
  | zero => simp [hardSplitLoop]
  | succ n ih =>
    intro piece hpiece
    rw [hardSplitLoop] at hpiece
    split_ifs at hpiece
    · cases hpiece
    · rcases List.mem_cons.mp hpiece with rfl | hpiece
      · exact fun hmem => h (List.mem_of_mem_take hmem)
      · exact ih (fun hmem => h (List.mem_of_mem_drop hmem)) piece hpiece

/-- Only the first line of a group can be a fence where no line is one. -/
def Unfenced (lines : List PyStr) : Prop :=
  ∀ l ∈ lines, '\n' ∉ l ∧ startsFence l = false

theorem tail_of_unfenced (h : Unfenced lines) :
    ∀ l ∈ (PyStr.lines (PyStr.joinLines lines)).tail, startsFence l = false := by
  by_cases hnil : lines = []
  · subst hnil
    simp [PyStr.joinLines, PyStr.lines]
  · rw [lines_joinLines hnil fun l hl => (h l hl).1]
    exact fun l hl => (h l (List.mem_of_mem_tail hl)).2

theorem groupLoop_tail {current : List PyStr} (currentLength : ℕ)
    (hlines : Unfenced lines) (hcurrent : Unfenced current) :
    ∀ g ∈ groupLoop budget lines current currentLength,
      ∀ l ∈ (PyStr.lines g).tail, startsFence l = false := by
  have hclose : ∀ open_ : List PyStr, Unfenced open_ → ∀ g ∈ closeGroup open_,
      ∀ l ∈ (PyStr.lines g).tail, startsFence l = false := by
    intro open_ hopen g hg
    unfold closeGroup at hg
    split_ifs at hg
    · cases hg
    · rw [List.mem_singleton.mp hg]
      exact tail_of_unfenced hopen
  induction lines generalizing current currentLength with
  | nil => exact hclose current hcurrent
  | cons line lines ih =>
    obtain ⟨hline, hlines⟩ := List.forall_mem_cons.mp hlines
    have hsingle : Unfenced [line] := by
      intro l hl
      rw [List.mem_singleton.mp hl]
      exact hline
    intro g hg
    rw [groupLoop] at hg
    split at hg
    · -- a line that is too long is cut, between two groups
      simp only [List.mem_append] at hg
      rcases hg with (hg | hg) | hg
      · exact hclose current hcurrent g hg
      · rw [lines_of_newline_free (hardSplitLoop_newline_free hline.1 g hg)]
        simp
      · exact ih 0 hlines (by simp [Unfenced]) g hg
    · extract_lets addition at hg
      split at hg
      · rcases List.mem_cons.mp hg with rfl | hg
        · exact tail_of_unfenced hcurrent
        · exact ih _ hlines hsingle g hg
      · exact ih _ hlines (List.forall_mem_append.mpr ⟨hcurrent, hsingle⟩) g hg

theorem paragraphLoop_tail (h : ∀ l ∈ (PyStr.lines text).tail, startsFence l = false) :
    ∀ chunk ∈ paragraphLoop maxLength n text,
      ∀ l ∈ (PyStr.lines chunk).tail, startsFence l = false := by
  induction n generalizing text with
  | zero => simp [paragraphLoop]
  | succ n ih =>
    intro chunk hchunk
    simp only [paragraphLoop] at hchunk
    split at hchunk
    · generalize (if PyStr.rstrip (text.take (findCutPoint text maxLength)) = [] then
        maxLength else findCutPoint text maxLength) = cut at hchunk
      rcases List.mem_append.mp hchunk with hchunk | hchunk
      · split_ifs at hchunk
        · cases hchunk
        · rw [List.mem_singleton.mp hchunk]
          intro l hl
          -- a line that is cut is a prefix of one, and no fence either
          have hprefix : PyStr.rstrip (text.take cut) <+: text :=
            (List.rdropWhile_prefix pyIsSpace _).trans (List.take_prefix ..)
          obtain ⟨l', hl', hle⟩ := (lines_of_leading hprefix).2 l hl
          exact startsFence_of_prefix hle (h l' hl')
      · have hsuffix : PyStr.lstripNewlines (text.drop cut) <:+ text :=
          (List.dropWhile_suffix _).trans (List.drop_suffix ..)
        exact ih (fun l hl => h l (lines_of_suffix hsuffix hl)) chunk hchunk
    · split_ifs at hchunk
      · cases hchunk
      · rw [List.mem_singleton.mp hchunk]
        exact h

/-- A block of a text whose fences are paired: code stands between two of them, and no other
line is a fence. -/
def Block.Paired (block : Block) : Prop :=
  match block.kind with
  | .code => startsFence ((PyStr.lines block.text).headD []) = true ∧
      codeClosed block.text = true ∧ Unfenced (codeBody block.text)
  | .table | .paragraph => Unfenced (PyStr.lines block.text)

theorem flushParagraph_paired (h : Unfenced paragraph) :
    ∀ b ∈ flushParagraph paragraph, b.Paired := by
  intro b hb
  unfold flushParagraph at hb
  dsimp only at hb
  split_ifs at hb with hblank
  · cases hb
  rw [not_or] at hblank
  rw [List.mem_singleton.mp hb]
  have hlines : Unfenced (PyStr.lines (PyStr.joinLines paragraph)) := by
    rwa [lines_joinLines hblank.1 fun l hl => (h l hl).1]
  generalize PyStr.joinLines paragraph = joined at hlines
  have hstripped : Unfenced (PyStr.lines (PyStr.lstripNewlines joined)) := fun l hl =>
    hlines l (lines_lstripNewlines joined hl)
  have hprefix : PyStr.stripNewlines joined <+: PyStr.lstripNewlines joined :=
    List.rdropWhile_prefix ..
  obtain ⟨hhead, htail⟩ := lines_of_leading hprefix
  show Unfenced (PyStr.lines (PyStr.stripNewlines joined))
  intro l hl
  refine ⟨newline_not_mem_lines _ l hl, ?_⟩
  rw [lines_head] at hl
  rcases List.mem_cons.mp hl with rfl | hl
  · refine startsFence_of_prefix hhead (hstripped _ ?_).2
    rw [lines_head (PyStr.lstripNewlines joined)]
    exact List.mem_cons_self
  · rw [List.drop_one] at hl
    obtain ⟨l', hl', hle⟩ := htail l hl
    exact startsFence_of_prefix hle (hstripped l' (List.mem_of_mem_tail hl')).2

theorem codeBlock_paired {closing : PyStr} {body : List PyStr}
    (hopening : '\n' ∉ opening ∧ startsFence opening = true) (hbody : Unfenced body)
    (hclosing : '\n' ∉ closing ∧ startsFence closing = true) :
    Block.Paired ⟨.code, PyStr.joinLines (opening :: body ++ [closing])⟩ := by
  have hlines : PyStr.lines (PyStr.joinLines (opening :: body ++ [closing])) =
      opening :: (body ++ [closing]) := by
    refine lines_joinLines (List.cons_ne_nil _ _) ?_
    simp only [List.cons_append, List.forall_mem_cons, List.forall_mem_append]
    exact ⟨hopening.1, fun l hl => (hbody l hl).1, by simpa using hclosing.1⟩
  have hlast : (body ++ [closing]).getLast? = some closing := List.getLast?_concat
  unfold Block.Paired codeClosed codeBody
  simp only [hlines, List.headD_cons, List.drop_one, List.tail_cons, hlast, Option.any_some,
    hclosing.2, if_true, List.dropLast_concat]
  exact ⟨hopening.2, trivial, hbody⟩

theorem countP_dropWhile {p : PyStr → Bool} (h : ∀ l ∈ lines.takeWhile p, startsFence l = false) :
    lines.countP startsFence = (lines.dropWhile p).countP startsFence := by
  have hzero : (lines.takeWhile p).countP startsFence = 0 := by
    rw [List.countP_eq_zero]
    intro l hl
    simp [h l hl]
  conv_lhs => rw [← List.takeWhile_append_dropWhile (p := p) (l := lines)]
  rw [List.countP_append, hzero, Nat.zero_add]

theorem closing_of_even {rest : List PyStr} (hfence : startsFence line = true)
    (heven : Even ((line :: rest).countP startsFence)) : ∃ closing later,
      (rest.dropWhile fun l => !startsFence l) = closing :: later ∧
      startsFence closing = true ∧ Even (later.countP startsFence) := by
  have hbody : ∀ l ∈ rest.takeWhile fun l => !startsFence l, startsFence l = false := fun l hl =>
    by simpa using List.mem_takeWhile_imp hl
  rw [List.countP_cons, if_pos hfence, countP_dropWhile hbody] at heven
  cases hafter : rest.dropWhile fun l => !startsFence l with
  | nil =>
    rw [hafter] at heven
    exact absurd heven (by decide)
  | cons closing later =>
    have hclosing : startsFence closing = true := by
      have hne : (rest.dropWhile fun l => !startsFence l) ≠ [] := by
        rw [hafter]
        exact List.cons_ne_nil _ _
      have hhead := List.head_dropWhile_not (fun l => !startsFence l) hne
      simpa [hafter] using hhead
    rw [hafter, List.countP_cons, if_pos hclosing] at heven
    exact ⟨closing, later, rfl, hclosing, by simpa only [Nat.even_add_one, not_not] using heven⟩

theorem blocksLoop_paired (hlines : ∀ l ∈ lines, '\n' ∉ l) (heven : Even (lines.countP startsFence))
    (hparagraph : Unfenced paragraph) : ∀ b ∈ blocksLoop n lines paragraph, b.Paired := by
  induction n generalizing lines paragraph with
  | zero => exact flushParagraph_paired hparagraph
  | succ n ih =>
    cases lines with
    | nil => exact flushParagraph_paired hparagraph
    | cons line rest =>
      obtain ⟨hline, hrest⟩ := List.forall_mem_cons.mp hlines
      have hnone : Unfenced [] := by simp [Unfenced]
      intro b hb
      simp only [blocksLoop] at hb
      split_ifs at hb with hfence htable hblank
      · -- a block of code
        rcases List.mem_append.mp hb with hb | hb
        · exact flushParagraph_paired hparagraph b hb
        have hbody : Unfenced (rest.takeWhile fun l => !startsFence l) := fun l hl =>
          ⟨hrest l ((List.takeWhile_prefix _).subset hl),
            by simpa using List.mem_takeWhile_imp hl⟩
        obtain ⟨closing, later, hafter, hclosing, heven⟩ := closing_of_even hfence heven
        have hsuffix : ∀ l ∈ closing :: later, '\n' ∉ l := fun l hl =>
          hrest l ((List.dropWhile_suffix _).subset (hafter ▸ hl))
        obtain ⟨hnewline, hlater⟩ := List.forall_mem_cons.mp hsuffix
        rw [hafter] at hb
        rcases List.mem_cons.mp hb with rfl | hb
        · exact codeBlock_paired ⟨hline, hfence⟩ hbody ⟨hnewline, hclosing⟩
        · exact ih hlater heven hnone b hb
      · -- a table
        rcases List.mem_append.mp hb with hb | hb
        · exact flushParagraph_paired hparagraph b hb
        have hbody : Unfenced (rest.takeWhile startsTableRow) := fun l hl =>
          ⟨hrest l ((List.takeWhile_prefix _).subset hl),
            startsFence_of_tableRow (List.mem_takeWhile_imp hl)⟩
        have hrows : Unfenced (line :: rest.takeWhile startsTableRow) :=
          List.forall_mem_cons.mpr ⟨⟨hline, startsFence_of_tableRow htable⟩, hbody⟩
        rcases List.mem_cons.mp hb with rfl | hb
        · show Unfenced (PyStr.lines (PyStr.joinLines _))
          rwa [lines_joinLines (List.cons_ne_nil _ _) fun l hl => (hrows l hl).1]
        · refine ih (fun l hl => hrest l ((List.dropWhile_suffix _).subset hl)) ?_ hnone b hb
          rw [List.countP_cons, if_neg hfence, Nat.add_zero] at heven
          rwa [← countP_dropWhile fun l hl => (hbody l hl).2]
      · -- a blank line ends the paragraph
        rw [List.countP_cons, if_neg hfence, Nat.add_zero] at heven
        rcases List.mem_append.mp hb with hb | hb
        · exact flushParagraph_paired hparagraph b hb
        · exact ih hrest heven hnone b hb
      · -- the paragraph goes on
        rw [List.countP_cons, if_neg hfence, Nat.add_zero] at heven
        refine ih hrest heven (List.forall_mem_append.mpr ⟨hparagraph, ?_⟩) b hb
        intro l hl
        rw [List.mem_singleton.mp hl]
        exact ⟨hline, by simpa using hfence⟩

theorem iterBlocks_paired (h : Even (fenceLines text)) :
    ∀ b ∈ iterBlocks text, b.Paired :=
  blocksLoop_paired (newline_not_mem_lines text) h (by simp [Unfenced])

/-- A chunk of a block, and if a cut has left its own lines with backticks in front. -/
structure Piece where
  text : PyStr
  torn : Bool
  deriving DecidableEq, Repr

/-- `splitBlock` with the cuts it makes. -/
def blockPieces (block : Block) (maxLength : ℕ) : List Piece :=
  if block.text.length ≤ maxLength then [⟨block.text, false⟩]
  else
    match block.kind with
    | .code =>
      let opening := (PyStr.lines block.text).headD []
      let budget := max 1 (maxLength - opening.length - FENCE.length - 2)
      (groupLines (codeBody block.text) budget).map fun group =>
        ⟨opening ++ ['\n'] ++ group ++ ['\n'] ++ FENCE, tornFence group⟩
    | .table =>
      let overhead := (PyStr.joinLines (tablePrefix block.text)).length + 1
      (groupLines (tableBody block.text) (max 1 (maxLength - overhead))).map fun group =>
        ⟨PyStr.joinLines (tablePrefix block.text ++ PyStr.lines group), tornFence group⟩
    | .paragraph =>
      (splitParagraph block.text maxLength).map fun chunk => ⟨chunk, tornFence chunk⟩

theorem blockPieces_text (block : Block) (maxLength : ℕ) :
    (blockPieces block maxLength).map Piece.text = splitBlock block maxLength := by
  unfold blockPieces splitBlock
  split_ifs
  · rfl
  · cases block.kind <;> simp [splitCode, splitTable, Function.comp_def]

/-- The piece has an odd number of fences exactly when it is torn. -/
def Piece.Counted (piece : Piece) : Prop :=
  Even (fenceLines piece.text) ↔ piece.torn = false

theorem even_torn (torn : Bool) : Even (if torn then 1 else 0) ↔ torn = false := by
  cases torn <;> decide

theorem fenceLines_of_unfenced (h : Unfenced lines) :
    lines.countP startsFence = 0 := by
  rw [List.countP_eq_zero]
  intro l hl
  simp [(h l hl).2]

theorem codePiece_counted (hopening : '\n' ∉ opening) (hstarts : startsFence opening = true)
    (hgroup : ∀ l ∈ (PyStr.lines group).tail, startsFence l = false) :
    Piece.Counted ⟨opening ++ ['\n'] ++ group ++ ['\n'] ++ FENCE, tornFence group⟩ := by
  have hone : fenceLines opening = 1 := by
    rw [fenceLines, lines_of_newline_free hopening]
    simp [hstarts]
  have htext : opening ++ ['\n'] ++ group ++ ['\n'] ++ FENCE =
      opening ++ '\n' :: (group ++ '\n' :: FENCE) := by simp
  have hclosing : fenceLines FENCE = 1 := by decide
  have hsum : fenceLines (opening ++ ['\n'] ++ group ++ ['\n'] ++ FENCE) =
      (if tornFence group then 1 else 0) + 2 := by
    rw [htext, fenceLines_append, fenceLines_append, hone, hclosing, fenceLines_of_tail hgroup]
    omega
  have htwo : Even 2 := by decide
  rw [Piece.Counted, hsum, Nat.even_add, even_torn]
  simp [htwo]

theorem tablePiece_counted {header : List PyStr} (hheader : Unfenced header)
    (hgroup : ∀ l ∈ (PyStr.lines group).tail, startsFence l = false) :
    Piece.Counted ⟨PyStr.joinLines (header ++ PyStr.lines group), tornFence group⟩ := by
  have hlines : PyStr.lines group ≠ [] := List.splitOn_ne_nil _ _
  have hsum : fenceLines (PyStr.joinLines (header ++ PyStr.lines group)) =
      if tornFence group then 1 else 0 := by
    rw [fenceLines_joinLines (List.append_ne_nil_of_right_ne_nil _ hlines), List.countP_append,
      fenceLines_of_unfenced hheader, Nat.zero_add]
    · exact fenceLines_of_tail hgroup
    · exact List.forall_mem_append.mpr ⟨fun l hl => (hheader l hl).1, newline_not_mem_lines group⟩
  rw [Piece.Counted, hsum, even_torn]

theorem closingLine_fences (h : codeClosed text = true) :
    (closingLine text).countP startsFence = 1 := by
  unfold closingLine codeClosed at *
  rw [if_pos h]
  cases hlast : ((PyStr.lines text).drop 1).getLast? with
  | none =>
    rw [hlast] at h
    cases h
  | some l =>
    rw [hlast] at h
    simpa using h

theorem Block.Paired.even (h : block.Paired) : Even (fenceLines block.text) := by
  obtain ⟨kind, text⟩ := block
  cases kind with
  | code =>
    obtain ⟨hopening, hclosed, hbody⟩ := h
    have hcount : fenceLines text = 2 := by
      rw [fenceLines, lines_head, codeBody_closingLine, List.countP_cons, List.countP_append,
        fenceLines_of_unfenced hbody, closingLine_fences hclosed, if_pos hopening]
    show Even (fenceLines text)
    rw [hcount]
    decide
  | table | paragraph =>
    show Even ((PyStr.lines text).countP startsFence)
    rw [fenceLines_of_unfenced h]
    decide

theorem blockPieces_counted (h : block.Paired) :
    ∀ piece ∈ blockPieces block maxLength, piece.Counted := by
  obtain ⟨kind, text⟩ := block
  intro piece hpiece
  unfold blockPieces at hpiece
  split_ifs at hpiece
  · rw [List.mem_singleton.mp hpiece]
    exact iff_of_true h.even rfl
  · cases kind with
    | code =>
      obtain ⟨group, hgroup, rfl⟩ := List.mem_map.mp hpiece
      refine codePiece_counted (newline_not_mem_lines text _ ?_) h.1
        (groupLoop_tail 0 h.2.2 (by simp [Unfenced]) group hgroup)
      rw [lines_head text]
      exact List.mem_cons_self
    | table =>
      obtain ⟨group, hgroup, rfl⟩ := List.mem_map.mp hpiece
      have hrows : Unfenced (tablePrefix text ++ tableBody text) := by
        rw [← tableBody_prefix]
        exact h
      obtain ⟨hheader, hbody⟩ := List.forall_mem_append.mp hrows
      exact tablePiece_counted hheader (groupLoop_tail 0 hbody (by simp [Unfenced]) group hgroup)
    | paragraph =>
      obtain ⟨chunk, hchunk, rfl⟩ := List.mem_map.mp hpiece
      have htail : ∀ l ∈ (PyStr.lines text).tail, startsFence l = false := fun l hl =>
        (h l (List.mem_of_mem_tail hl)).2
      rw [Piece.Counted, fenceLines_of_tail (paragraphLoop_tail htail chunk hchunk), even_torn]

def textPieces (text : PyStr) (maxLength : ℕ) : List Piece :=
  (iterBlocks text).flatMap fun block => blockPieces block maxLength

def joinedText (run : List Piece) : PyStr := ['\n', '\n'].intercalate (run.map Piece.text)

/-- `packLoop` with the pieces of each segment; `current` holds the pieces of the one that may
still grow. -/
def packRuns (maxLength : ℕ) : List Piece → List Piece → List (List Piece)
  | [], current => if joinedText current = [] then [] else [current]
  | piece :: pieces, current =>
    let candidate := if joinedText current = [] then [piece] else current ++ [piece]
    if (joinedText candidate).length ≤ maxLength then packRuns maxLength pieces candidate
    else (if joinedText current = [] then [] else [current]) ++ packRuns maxLength pieces [piece]

theorem joinedText_concat (h : run ≠ []) (piece : Piece) :
    joinedText (run ++ [piece]) = joinedText run ++ ['\n', '\n'] ++ piece.text := by
  induction run with
  | nil => exact absurd rfl h
  | cons first run ih =>
    cases run with
    | nil => simp [joinedText, List.intercalate]
    | cons second rest =>
      have hrest := ih (List.cons_ne_nil _ _)
      simp only [joinedText, List.intercalate, List.cons_append, List.map_cons, List.intersperse,
        List.flatten_cons] at hrest ⊢
      rw [hrest]
      simp

@[simp] theorem joinedText_singleton (piece : Piece) : joinedText [piece] = piece.text := by
  simp [joinedText]

theorem packRuns_text (maxLength : ℕ) (pieces current : List Piece) :
    (packRuns maxLength pieces current).map joinedText =
      packLoop maxLength (pieces.map Piece.text) (joinedText current) := by
  have hclose : ∀ run : List Piece, (if joinedText run = [] then [] else [run]).map joinedText =
      if joinedText run = [] then [] else [joinedText run] := by
    intro run
    split_ifs <;> rfl
  induction pieces generalizing current with
  | nil => exact hclose current
  | cons piece pieces ih =>
    have hcandidate : joinedText (if joinedText current = [] then [piece] else current ++ [piece]) =
        if joinedText current = [] then piece.text
        else joinedText current ++ ['\n', '\n'] ++ piece.text := by
      split_ifs with h
      · exact joinedText_singleton piece
      · refine joinedText_concat ?_ piece
        rintro rfl
        exact h rfl
    rw [packRuns, List.map_cons, packLoop, ← hcandidate]
    generalize (if joinedText current = [] then [piece] else current ++ [piece]) = candidate
    split
    · exact ih candidate
    · rw [List.map_append, hclose, ih, joinedText_singleton]

theorem packRuns_all {P : Piece → Prop} {pieces current : List Piece}
    (hpieces : ∀ p ∈ pieces, P p) (hcurrent : ∀ p ∈ current, P p) :
    ∀ run ∈ packRuns maxLength pieces current, ∀ p ∈ run, P p := by
  have hclose : ∀ last : List Piece, (∀ p ∈ last, P p) →
      ∀ run ∈ (if joinedText last = [] then [] else [last]), ∀ p ∈ run, P p := by
    intro last hlast run hrun
    split_ifs at hrun
    · cases hrun
    · rwa [List.mem_singleton.mp hrun]
  induction pieces generalizing current with
  | nil => exact hclose current hcurrent
  | cons piece pieces ih =>
    obtain ⟨hpiece, hpieces⟩ := List.forall_mem_cons.mp hpieces
    have hsingle : ∀ p ∈ [piece], P p := by simpa using hpiece
    have hcandidate : ∀ p ∈ (if joinedText current = [] then [piece] else current ++ [piece]),
        P p := by
      split_ifs
      · exact hsingle
      · exact List.forall_mem_append.mpr ⟨hcurrent, hsingle⟩
    rw [packRuns]
    generalize (if joinedText current = [] then [piece] else current ++ [piece]) = candidate
      at hcandidate ⊢
    split
    · exact ih hpieces hcandidate
    · exact List.forall_mem_append.mpr ⟨hclose current hcurrent, ih hpieces hsingle⟩

theorem joinedText_even (h : ∀ p ∈ run, p.Counted) :
    Even (fenceLines (joinedText run)) ↔ Even (run.countP Piece.torn) := by
  induction run using List.reverseRecOn with
  | nil => decide
  | append_singleton run piece ih =>
    obtain ⟨hrun, hlast⟩ := List.forall_mem_append.mp h
    have hpiece : Even (fenceLines piece.text) ↔ piece.torn = false :=
      hlast piece List.mem_cons_self
    have htorn : Even ([piece].countP Piece.torn) ↔ piece.torn = false := by
      rw [List.countP_singleton]
      exact even_torn piece.torn
    rw [List.countP_append, Nat.even_add, htorn, ← ih hrun, ← hpiece]
    by_cases hnil : run = []
    · subst hnil
      rw [List.nil_append, joinedText_singleton]
      have hnone : Even (fenceLines (joinedText [])) := by decide
      simp [hnone]
    · have htext : joinedText (run ++ [piece]) =
          joinedText run ++ '\n' :: ([] ++ '\n' :: piece.text) := by
        rw [joinedText_concat hnil]
        simp
      have hempty : fenceLines [] = 0 := by decide
      rw [htext, fenceLines_append, fenceLines_append, hempty, Nat.zero_add, Nat.even_add]

theorem blank_line (h : visible line = []) : PyStr.strip line = [] := by
  have hspaces : ∀ c ∈ line, pyIsSpace c = true := by
    simpa [visible, List.filter_eq_nil_iff] using h
  rw [PyStr.strip, PyStr.lstrip, List.dropWhile_eq_nil_iff.mpr hspaces]
  rfl

theorem blocksLoop_blank (h : ∀ l ∈ lines, PyStr.strip l = []) :
    blocksLoop n lines [] = [] := by
  induction n generalizing lines with
  | zero => rfl
  | succ n ih =>
    cases lines with
    | nil => rfl
    | cons line rest =>
      obtain ⟨hline, hrest⟩ := List.forall_mem_cons.mp h
      have hfence : startsFence line = false := by
        rw [startsFence, hline]
        rfl
      have htable : startsTableRow line = false := by
        rw [startsTableRow, hline]
        rfl
      simp only [blocksLoop, hfence, htable, hline, Bool.false_eq_true, if_false, if_true, ih hrest]
      rfl

theorem iterBlocks_blank (h : PyStr.strip text = []) : iterBlocks text = [] := by
  have hlines := visible_lines text
  rw [visible_of_blank h, List.flatMap_eq_nil_iff] at hlines
  exact blocksLoop_blank fun l hl => blank_line (hlines l hl)

end WittyService

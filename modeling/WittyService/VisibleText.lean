import Mathlib.Data.List.Flatten
import WittyService.TextSegments

/-! The visible characters of a text, and what its lines, paragraphs and blocks keep of them. -/
namespace WittyService

def visible (text : PyStr) : PyStr := text.filter fun c => !pyIsSpace c

@[simp] theorem visible_nil : visible [] = [] := rfl

@[simp] theorem visible_append (s t : PyStr) : visible (s ++ t) = visible s ++ visible t :=
  List.filter_append ..

theorem visible_newline : visible ['\n'] = [] := rfl

variable {p : Char → Bool} {text : PyStr} {budget n maxLength : ℕ}

theorem visible_dropWhile (hp : ∀ c, p c = true → pyIsSpace c = true)
    (text : PyStr) : visible (text.dropWhile p) = visible text := by
  induction text with
  | nil => rfl
  | cons c text ih =>
    by_cases hc : p c = true
    · rw [List.dropWhile_cons_of_pos hc, ih, visible, visible, List.filter_cons_of_neg]
      simp [hp c hc]
    · rw [List.dropWhile_cons_of_neg hc]

theorem visible_reverse (text : PyStr) : visible text.reverse = (visible text).reverse :=
  List.filter_reverse ..

theorem visible_rdropWhile (hp : ∀ c, p c = true → pyIsSpace c = true)
    (text : PyStr) : visible (text.rdropWhile p) = visible text := by
  rw [List.rdropWhile, visible_reverse, visible_dropWhile hp, visible_reverse,
    List.reverse_reverse]

theorem newline_isSpace (c : Char) (h : (c == '\n') = true) : pyIsSpace c = true := by
  rw [eq_of_beq h]
  rfl

@[simp] theorem visible_lstripNewlines (text : PyStr) :
    visible (PyStr.lstripNewlines text) = visible text :=
  visible_dropWhile newline_isSpace text

@[simp] theorem visible_stripNewlines (text : PyStr) :
    visible (PyStr.stripNewlines text) = visible text := by
  rw [PyStr.stripNewlines, visible_rdropWhile newline_isSpace, visible_lstripNewlines]

@[simp] theorem visible_rstrip (text : PyStr) : visible (PyStr.rstrip text) = visible text :=
  visible_rdropWhile (fun _ h => h) text

@[simp] theorem visible_strip (text : PyStr) : visible (PyStr.strip text) = visible text := by
  rw [PyStr.strip, visible_rstrip, PyStr.lstrip, visible_dropWhile fun _ h => h]

theorem visible_of_blank (h : PyStr.strip text = []) : visible text = [] := by
  rw [← visible_strip, h]
  rfl

variable (lines current : List PyStr)

theorem visible_joinLines :
    visible (PyStr.joinLines lines) = lines.flatMap visible := by
  induction lines with
  | nil => rfl
  | cons line lines ih =>
    cases lines with
    | nil => simp [PyStr.joinLines]
    | cons next rest =>
      have hjoin : PyStr.joinLines (line :: next :: rest) =
          line ++ ['\n'] ++ PyStr.joinLines (next :: rest) := by
        simp [PyStr.joinLines, List.intercalate]
      rw [hjoin, visible_append, visible_append, ih, visible_newline, List.append_nil]
      rfl

theorem visible_lines (text : PyStr) : (PyStr.lines text).flatMap visible = visible text := by
  rw [← visible_joinLines, PyStr.joinLines, PyStr.lines, List.intercalate_splitOn]

theorem flatMap_hardSplitLoop (hbudget : 0 < budget)
    (hn : text.length ≤ n) : (hardSplitLoop budget n text).flatMap visible = visible text := by
  induction n generalizing text with
  | zero => rw [List.length_eq_zero_iff.mp (Nat.le_zero.mp hn)]; rfl
  | succ n ih =>
    rw [hardSplitLoop]
    split_ifs with hnil
    · simp [hnil]
    · have hpos : 0 < text.length := List.length_pos_iff_ne_nil.mpr hnil
      have hdrop : (text.drop budget).length ≤ n := by
        rw [List.length_drop]
        omega
      rw [List.flatMap_cons, ih hdrop, ← visible_append, List.take_append_drop]

theorem flatMap_closeGroup : (closeGroup current).flatMap visible = current.flatMap visible := by
  unfold closeGroup
  split_ifs with h
  · simp [h]
  · rw [List.flatMap_singleton, visible_joinLines]

theorem flatMap_groupLoop (hbudget : 0 < budget) (lines current : List PyStr)
    (currentLength : ℕ) : (groupLoop budget lines current currentLength).flatMap visible =
      current.flatMap visible ++ lines.flatMap visible := by
  induction lines generalizing current currentLength with
  | nil => rw [groupLoop, flatMap_closeGroup]; simp
  | cons line lines ih =>
    rw [groupLoop]
    split
    · rw [List.flatMap_append, List.flatMap_append, flatMap_closeGroup, ih, hardSplit,
        flatMap_hardSplitLoop hbudget (Nat.le_refl _)]
      simp
    · extract_lets addition
      split
      · rw [List.flatMap_cons, ih, visible_joinLines]
        simp
      · rw [ih]
        simp

theorem flatMap_groupLines (hbudget : 0 < budget) (lines : List PyStr) :
    (groupLines lines budget).flatMap visible = lines.flatMap visible :=
  flatMap_groupLoop hbudget lines [] 0

theorem closeGroup_ne_nil {current : List PyStr} (h : current ≠ []) : closeGroup current ≠ [] := by
  simp [closeGroup, h]

theorem groupLoop_ne_nil (currentLength : ℕ)
    (h : current ≠ [] ∨ lines ≠ []) : groupLoop budget lines current currentLength ≠ [] := by
  induction lines generalizing current currentLength with
  | nil => exact closeGroup_ne_nil (h.resolve_right fun hne => hne rfl)
  | cons line lines ih =>
    rw [groupLoop]
    split
    · rename_i hlong
      have hline : line ≠ [] := by
        rintro rfl
        simp at hlong
      have hpos : line.length ≠ 0 := fun hzero => hline (List.length_eq_zero_iff.mp hzero)
      obtain ⟨n, hn⟩ := Nat.exists_eq_succ_of_ne_zero hpos
      have hsplit : hardSplit line budget ≠ [] := by
        rw [hardSplit, hn, hardSplitLoop, if_neg hline]
        exact List.cons_ne_nil _ _
      simp [hsplit]
    · extract_lets addition
      split
      · exact List.cons_ne_nil _ _
      · exact ih _ _ (.inl (by simp))

theorem groupLines_eq_nil_iff :
    groupLines lines budget = [] ↔ lines = [] := by
  constructor
  · intro h
    by_contra hne
    exact groupLoop_ne_nil lines [] 0 (.inr hne) h
  · rintro rfl
    rfl

theorem findCutPoint_pos (text : PyStr) {limit : ℕ} (hlimit : 0 < limit) :
    0 < findCutPoint text limit := by
  have hloop : ∀ priorities fallback,
      0 < cutLoop (text.take limit) (max 1 (limit / 2)) limit priorities fallback := by
    intro priorities
    induction priorities with
    | nil =>
      intro fallback
      unfold cutLoop
      split_ifs with h
      · exact h
      · exact hlimit
    | cons priority priorities ih =>
      intro fallback
      simp only [cutLoop]
      split_ifs with hzero
      · exact ih fallback
      · exact Nat.pos_of_ne_zero hzero
      · exact ih _
  exact hloop _ 0

theorem flatMap_paragraphLoop (hmax : 0 < maxLength)
    (hn : text.length < n) : (paragraphLoop maxLength n text).flatMap visible = visible text := by
  induction n generalizing text with
  | zero => exact absurd hn (Nat.not_lt_zero _)
  | succ n ih =>
    simp only [paragraphLoop]
    split
    · rename_i hlong
      set cut := if PyStr.rstrip (text.take (findCutPoint text maxLength)) = [] then maxLength
        else findCutPoint text maxLength
      have hcut : 0 < cut := by
        simp only [cut]
        split_ifs
        · exact hmax
        · exact findCutPoint_pos text hmax
      have hrest : (PyStr.lstripNewlines (text.drop cut)).length < n := by
        have hle := List.length_dropWhile_le (· == '\n') (text.drop cut)
        rw [List.length_drop] at hle
        simp only [PyStr.lstripNewlines]
        omega
      have hhead : (if PyStr.rstrip (text.take cut) = [] then []
          else [PyStr.rstrip (text.take cut)]).flatMap visible = visible (text.take cut) := by
        rw [← visible_rstrip]
        split_ifs with h
        · rw [h]
          rfl
        · exact List.flatMap_singleton ..
      rw [List.flatMap_append, hhead, ih hrest, visible_lstripNewlines, ← visible_append,
        List.take_append_drop]
    · split_ifs with hblank
      · rw [visible_of_blank hblank]
        rfl
      · exact List.flatMap_singleton ..

theorem flatMap_splitParagraph (hmax : 0 < maxLength) (text : PyStr) :
    (splitParagraph text maxLength).flatMap visible = visible text :=
  flatMap_paragraphLoop hmax (Nat.lt_succ_self _)

theorem flatMap_flushParagraph (paragraph : List PyStr) :
    (flushParagraph paragraph).flatMap (fun b => visible b.text) = paragraph.flatMap visible := by
  have hjoined : visible (PyStr.stripNewlines (PyStr.joinLines paragraph)) =
      paragraph.flatMap visible := by
    rw [visible_stripNewlines, visible_joinLines]
  unfold flushParagraph
  dsimp only
  split_ifs with h
  · rw [← hjoined]
    rcases h with h | h
    · rw [h]
      rfl
    · rw [visible_of_blank h]
      rfl
  · rw [List.flatMap_singleton]
    exact hjoined

theorem flatMap_blocksLoop {lines : List PyStr} (hn : lines.length ≤ n)
    (paragraph : List PyStr) : (blocksLoop n lines paragraph).flatMap (fun b => visible b.text) =
      paragraph.flatMap visible ++ lines.flatMap visible := by
  induction n generalizing lines paragraph with
  | zero =>
    rw [List.length_eq_zero_iff.mp (Nat.le_zero.mp hn), blocksLoop, flatMap_flushParagraph]
    simp
  | succ n ih =>
    cases lines with
    | nil =>
      rw [blocksLoop, flatMap_flushParagraph]
      simp
    | cons line rest =>
      have hlen : rest.length ≤ n := Nat.le_of_succ_le_succ hn
      simp only [blocksLoop]
      split_ifs with hfence htable hblank
      · set body := rest.takeWhile fun l => !startsFence l
        set after := rest.dropWhile fun l => !startsFence l
        have hafter : after.length ≤ n := (List.length_dropWhile_le _ _).trans hlen
        have hdrop : (after.drop 1).length ≤ n := by
          rw [List.length_drop]
          omega
        have hrest : rest.flatMap visible = body.flatMap visible ++
            ((after.take 1).flatMap visible ++ (after.drop 1).flatMap visible) := by
          rw [← List.flatMap_append, List.take_append_drop, ← List.flatMap_append,
            List.takeWhile_append_dropWhile]
        rw [List.flatMap_append, List.flatMap_cons, flatMap_flushParagraph, ih hdrop,
          visible_joinLines, List.flatMap_cons, hrest]
        simp
      · have hdrop : (rest.dropWhile startsTableRow).length ≤ n :=
          (List.length_dropWhile_le _ _).trans hlen
        have hrest : rest.flatMap visible = (rest.takeWhile startsTableRow).flatMap visible ++
            (rest.dropWhile startsTableRow).flatMap visible := by
          rw [← List.flatMap_append, List.takeWhile_append_dropWhile]
        rw [List.flatMap_append, List.flatMap_cons, flatMap_flushParagraph, ih hdrop,
          visible_joinLines, List.flatMap_cons, List.flatMap_cons, hrest]
        simp
      · rw [List.flatMap_append, flatMap_flushParagraph, ih hlen, List.flatMap_cons,
          visible_of_blank hblank]
        simp
      · rw [ih hlen]
        simp

theorem flatMap_iterBlocks (text : PyStr) :
    (iterBlocks text).flatMap (fun b => visible b.text) = visible text := by
  rw [iterBlocks, flatMap_blocksLoop (Nat.le_refl _), List.flatMap_nil, List.nil_append,
    visible_lines]

theorem flatMap_packLoop (maxLength : ℕ) (chunks : List PyStr) (current : PyStr) :
    (packLoop maxLength chunks current).flatMap visible =
      visible current ++ chunks.flatMap visible := by
  have hcurrent : ∀ s : PyStr, (if s = [] then [] else [s]).flatMap visible = visible s := by
    intro s
    split_ifs with h
    · rw [h]
      rfl
    · exact List.flatMap_singleton ..
  induction chunks generalizing current with
  | nil => rw [packLoop, hcurrent]; simp
  | cons chunk chunks ih =>
    have hcandidate : visible (if current = [] then chunk else current ++ ['\n', '\n'] ++ chunk) =
        visible current ++ visible chunk := by
      split_ifs with h
      · rw [h]
        rfl
      · rw [visible_append, visible_append]
        simp [visible, pyIsSpace]
    rw [packLoop]
    generalize (if current = [] then chunk else current ++ ['\n', '\n'] ++ chunk) = candidate
      at hcandidate ⊢
    split
    · rw [ih, hcandidate, List.flatMap_cons, List.append_assoc]
    · rw [List.flatMap_append, hcurrent, ih, List.flatMap_cons]

end WittyService

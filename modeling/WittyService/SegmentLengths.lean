import WittyService.SegmentContents

/-! The lengths of the segments of `split_text`. The fences of a code block and the header of a
table are copied into every segment whole, and a budget of one character is always left. -/
namespace WittyService

theorem joinLines_singleton (line : PyStr) : PyStr.joinLines [line] = line := by
  simp [PyStr.joinLines]

variable {current lines : List PyStr} {budget limit : ℕ} {text window : PyStr}

theorem length_joinLines_concat (h : current ≠ []) (line : PyStr) :
    (PyStr.joinLines (current ++ [line])).length =
      (PyStr.joinLines current).length + (line.length + 1) := by
  rw [joinLines_append h (List.cons_ne_nil _ _), joinLines_singleton]
  simp

theorem hardSplitLoop_within {n : ℕ} :
    ∀ piece ∈ hardSplitLoop budget n text, piece.length ≤ budget := by
  induction n generalizing text with
  | zero => simp [hardSplitLoop]
  | succ n ih =>
    intro piece hpiece
    rw [hardSplitLoop] at hpiece
    split_ifs at hpiece
    · cases hpiece
    · rcases List.mem_cons.mp hpiece with rfl | hpiece
      · exact List.length_take_le ..
      · exact ih piece hpiece

theorem closeGroup_within (h : (PyStr.joinLines current).length ≤ budget) :
    ∀ g ∈ closeGroup current, g.length ≤ budget := by
  unfold closeGroup
  split_ifs
  · simp
  · simpa using h

theorem groupLoop_within (lines current : List PyStr)
    (h : (PyStr.joinLines current).length ≤ budget) :
    ∀ g ∈ groupLoop budget lines current (PyStr.joinLines current).length,
      g.length ≤ budget := by
  induction lines generalizing current with
  | nil => exact closeGroup_within h
  | cons line lines ih =>
    intro g hg
    rw [groupLoop] at hg
    split at hg
    · have hempty : (PyStr.joinLines []).length = 0 := rfl
      simp only [List.mem_append] at hg
      rcases hg with (hg | hg) | hg
      · exact closeGroup_within h g hg
      · exact hardSplitLoop_within g hg
      · exact ih [] (Nat.zero_le _) g (hempty ▸ hg)
    · rename_i hshort
      have hline : (PyStr.joinLines [line]).length ≤ budget := by
        rw [joinLines_singleton]
        omega
      by_cases hnil : current = []
      · subst hnil
        refine ih [line] hline g ?_
        simpa [PyStr.joinLines] using hg
      · have hconcat := length_joinLines_concat hnil line
        simp only [hnil, ne_eq, not_false_eq_true, true_and, if_false] at hg
        split at hg
        · rcases List.mem_cons.mp hg with rfl | hg
          · exact h
          · exact ih [line] hline g (by rwa [joinLines_singleton])
        · refine ih (current ++ [line]) (by omega) g ?_
          rwa [hconcat]

theorem groupLines_within (lines : List PyStr) :
    ∀ g ∈ groupLines lines budget, g.length ≤ budget :=
  groupLoop_within lines [] (Nat.zero_le _)

theorem hardSplit_ne_nil (hbudget : 0 < budget) {line : PyStr} (h : line ≠ []) :
    ∃ piece ∈ hardSplit line budget, piece ≠ [] := by
  have hpos : line.length ≠ 0 := fun hzero => h (List.length_eq_zero_iff.mp hzero)
  obtain ⟨n, hn⟩ := Nat.exists_eq_succ_of_ne_zero hpos
  refine ⟨line.take budget, ?_, ?_⟩
  · rw [hardSplit, hn, hardSplitLoop, if_neg h]
    exact List.mem_cons_self
  · simp only [ne_eq, List.take_eq_nil_iff, h, or_false]
    omega

theorem groupLoop_keeps (budget : ℕ) (lines current : List PyStr) (currentLength : ℕ)
    (h : PyStr.joinLines current ≠ []) :
    ∃ g ∈ groupLoop budget lines current currentLength, g ≠ [] := by
  have hcurrent : current ≠ [] := by
    rintro rfl
    exact h rfl
  have hclose : PyStr.joinLines current ∈ closeGroup current := by
    simp [closeGroup, hcurrent]
  induction lines generalizing current currentLength with
  | nil => exact ⟨_, hclose, h⟩
  | cons line lines ih =>
    rw [groupLoop]
    split
    · exact ⟨_, List.mem_append_left _ (List.mem_append_left _ hclose), h⟩
    · extract_lets addition
      split
      · exact ⟨_, List.mem_cons_self, h⟩
      · have hnext : PyStr.joinLines (current ++ [line]) ≠ [] := by
          rw [joinLines_append hcurrent (List.cons_ne_nil _ _)]
          simp
        exact ih _ _ hnext (by simp) (by simp [closeGroup])

theorem exists_group_ne_nil (hne : lines ≠ []) (hblank : lines ≠ [[]]) :
    ∃ g ∈ groupLines lines 1, g ≠ [] := by
  obtain ⟨line, rest, rfl⟩ := List.exists_cons_of_ne_nil hne
  unfold groupLines
  rw [groupLoop]
  split
  · rename_i hlong
    have hline : line ≠ [] := by
      rintro rfl
      simp at hlong
    obtain ⟨piece, hpiece, hpos⟩ := hardSplit_ne_nil Nat.one_pos hline
    exact ⟨piece, List.mem_append_left _ (List.mem_append_right _ hpiece), hpos⟩
  · simp only [ne_eq, not_true_eq_false, false_and, if_false, if_true, List.nil_append]
    by_cases hline : line = []
    · subst hline
      have hrest : rest ≠ [] := fun h => hblank (by rw [h])
      obtain ⟨next, rest, rfl⟩ := List.exists_cons_of_ne_nil hrest
      rw [groupLoop]
      split
      · rename_i hlong
        have hnext : next ≠ [] := by
          rintro rfl
          simp at hlong
        obtain ⟨piece, hpiece, hpos⟩ := hardSplit_ne_nil Nat.one_pos hnext
        exact ⟨piece, List.mem_append_left _ (List.mem_append_right _ hpiece), hpos⟩
      · extract_lets addition
        split
        · rename_i hover
          have hnext : next ≠ [] := by
            rintro rfl
            simp [addition] at hover
          obtain ⟨g, hg, hpos⟩ := groupLoop_keeps _ rest [next] next.length
            (by rwa [joinLines_singleton])
          exact ⟨g, List.mem_cons_of_mem _ hg, hpos⟩
        · exact groupLoop_keeps _ _ _ _ (by simp [PyStr.joinLines, List.intercalate])
    · exact groupLoop_keeps _ _ _ _ (by rwa [joinLines_singleton])

/-- What is copied into every segment leaves room for a character of the lines. Where it takes
up a segment to the last character, a single empty line still fits. -/
def Room (lines : List PyStr) (overhead limit : ℕ) : Prop :=
  lines = [] ∨ overhead < limit ∨ overhead = limit ∧ lines = [[]]

theorem groupLines_room {overhead : ℕ} :
    (∀ g ∈ groupLines lines (max 1 (limit - overhead)), overhead + g.length ≤ limit) ↔
      Room lines overhead limit := by
  constructor
  · intro hall
    by_cases hnil : lines = []
    · exact .inl hnil
    by_cases hroom : overhead < limit
    · exact .inr (.inl hroom)
    have hbudget : max 1 (limit - overhead) = 1 := by omega
    rw [hbudget] at hall
    have hgroups : groupLines lines 1 ≠ [] := fun h => hnil ((groupLines_eq_nil_iff lines).mp h)
    obtain ⟨g, hg⟩ := List.exists_mem_of_ne_nil _ hgroups
    have hfit := hall g hg
    refine .inr (.inr ⟨by omega, ?_⟩)
    by_contra hblank
    obtain ⟨g, hg, hpos⟩ := exists_group_ne_nil hnil hblank
    have hlength := List.length_pos_iff_ne_nil.mpr hpos
    have hfit := hall g hg
    omega
  · rintro (rfl | hroom | ⟨rfl, rfl⟩) g hg
    · cases hg
    · have hlength := groupLines_within lines g hg
      omega
    · have hbudget : max 1 (overhead - overhead) = 1 := by omega
      rw [hbudget] at hg
      have hgroups : groupLines [[]] 1 = [[]] := by decide
      rw [hgroups] at hg
      rw [List.mem_singleton.mp hg]
      simp

theorem rfind_within {needle : PyStr} {found : ℕ}
    (h : PyStr.rfind window needle = some found) : found + needle.length ≤ window.length := by
  have hpos : found < window.length + 1 := by
    have hmem := List.mem_of_find?_eq_some h
    simpa using hmem
  have hprefix : needle.isPrefixOf (window.drop found) = true :=
    List.find?_some (p := fun i => needle.isPrefixOf (window.drop i)) h
  obtain ⟨rest, hrest⟩ := List.isPrefixOf_iff_prefix.mp hprefix
  have hlength := congrArg List.length hrest
  simp only [List.length_append, List.length_drop] at hlength
  omega

theorem cutPosition_within (window : PyStr) {priority : List PyStr × ℕ}
    (h : ∀ needle ∈ priority.1, priority.2 ≤ needle.length) :
    cutPosition window priority ≤ window.length := by
  refine List.foldlRecOn priority.1 _ (motive := (· ≤ window.length)) (Nat.zero_le _) ?_
  intro position hposition needle hneedle
  split
  · next found hfound =>
    have hneedle := h needle hneedle
    have hwithin := rfind_within hfound
    exact max_le hposition (by omega)
  · exact hposition

theorem cutLoop_within {minimum : ℕ} (hwindow : window.length ≤ limit)
    (priorities : List (List PyStr × ℕ))
    (h : ∀ priority ∈ priorities, ∀ needle ∈ priority.1, priority.2 ≤ needle.length)
    {fallback : ℕ} (hfallback : fallback ≤ limit) :
    cutLoop window minimum limit priorities fallback ≤ limit := by
  induction priorities generalizing fallback with
  | nil =>
    unfold cutLoop
    split_ifs
    · exact hfallback
    · exact Nat.le_refl _
  | cons priority priorities ih =>
    obtain ⟨hpriority, hrest⟩ := List.forall_mem_cons.mp h
    have hposition := (cutPosition_within window hpriority).trans hwindow
    simp only [cutLoop]
    split_ifs
    · exact ih hrest hfallback
    · exact hposition
    · exact ih hrest (max_le hfallback hposition)

theorem findCutPoint_within (text : PyStr) (limit : ℕ) : findCutPoint text limit ≤ limit :=
  cutLoop_within (List.length_take_le ..) CUT_PRIORITIES (by decide) (Nat.zero_le _)

theorem length_rstrip_le (text : PyStr) : (PyStr.rstrip text).length ≤ text.length :=
  (List.rdropWhile_prefix pyIsSpace text).length_le

theorem paragraphLoop_within {maxLength n : ℕ} :
    ∀ chunk ∈ paragraphLoop maxLength n text, chunk.length ≤ maxLength := by
  induction n generalizing text with
  | zero => simp [paragraphLoop]
  | succ n ih =>
    intro chunk hchunk
    simp only [paragraphLoop] at hchunk
    split at hchunk
    · generalize hcut : (if PyStr.rstrip (text.take (findCutPoint text maxLength)) = [] then
        maxLength else findCutPoint text maxLength) = cut at hchunk
      have hwithin : cut ≤ maxLength := by
        rw [← hcut]
        split_ifs
        · exact Nat.le_refl _
        · exact findCutPoint_within text maxLength
      rcases List.mem_append.mp hchunk with hchunk | hchunk
      · split_ifs at hchunk
        · cases hchunk
        · rw [List.mem_singleton.mp hchunk]
          exact (length_rstrip_le _).trans ((List.length_take_le ..).trans hwithin)
      · exact ih chunk hchunk
    · rename_i hshort
      split_ifs at hchunk
      · cases hchunk
      · rw [List.mem_singleton.mp hchunk]
        omega

def codeOverhead (text : PyStr) : ℕ := ((PyStr.lines text).headD []).length + FENCE.length + 2

def tableOverhead (text : PyStr) : ℕ := (PyStr.joinLines (tablePrefix text)).length + 1

/-- The block fits one segment, or what is copied into its segments leaves room. -/
def Block.Roomy (block : Block) (limit : ℕ) : Prop :=
  block.text.length ≤ limit ∨
    match block.kind with
    | .code => Room (codeBody block.text) (codeOverhead block.text) limit
    | .table => Room (tableBody block.text) (tableOverhead block.text) limit
    | .paragraph => True

theorem splitCode_within : (∀ chunk ∈ splitCode text limit, chunk.length ≤ limit) ↔
      Room (codeBody text) (codeOverhead text) limit := by
  have hbudget : limit - ((PyStr.lines text).headD []).length - FENCE.length - 2 =
      limit - codeOverhead text := by
    unfold codeOverhead
    omega
  rw [← groupLines_room]
  simp only [splitCode, hbudget, List.forall_mem_map]
  refine forall₂_congr fun group _ => ?_
  have hlength : (((PyStr.lines text).headD []) ++ ['\n'] ++ group ++ ['\n'] ++ FENCE).length =
      codeOverhead text + group.length := by
    simp only [List.length_append, List.length_singleton, codeOverhead]
    omega
  rw [hlength]

theorem splitTable_within : (∀ chunk ∈ splitTable text limit, chunk.length ≤ limit) ↔
      Room (tableBody text) (tableOverhead text) limit := by
  rw [← groupLines_room]
  simp only [splitTable, List.forall_mem_map]
  refine forall₂_congr fun group _ => ?_
  have hlines : PyStr.lines group ≠ [] := List.splitOn_ne_nil _ _
  have hgroup : PyStr.joinLines (PyStr.lines group) = group := List.intercalate_splitOn _
  rw [joinLines_append (tablePrefix_ne_nil text) hlines, hgroup, List.length_append,
    List.length_cons, tableOverhead]
  omega

theorem splitBlock_within {block : Block} :
    (∀ chunk ∈ splitBlock block limit, chunk.length ≤ limit) ↔ block.Roomy limit := by
  unfold splitBlock Block.Roomy
  split_ifs with hshort
  · simp [hshort]
  · cases block.kind with
    | code => simpa [hshort] using splitCode_within
    | table => simpa [hshort] using splitTable_within
    | paragraph =>
      simp only [or_true, iff_true]
      exact paragraphLoop_within

theorem packLoop_within (chunks : List PyStr) (current : PyStr) :
    (∀ s ∈ packLoop limit chunks current, s.length ≤ limit) ↔
      current.length ≤ limit ∧ ∀ c ∈ chunks, c.length ≤ limit := by
  have hcurrent : ∀ s : PyStr, (∀ t ∈ (if s = [] then [] else [s]), t.length ≤ limit) ↔
      s.length ≤ limit := by
    intro s
    split_ifs with h
    · simp [h]
    · simp
  induction chunks generalizing current with
  | nil => simp only [packLoop, hcurrent, List.not_mem_nil, false_implies, implies_true, and_true]
  | cons chunk chunks ih =>
    have hcandidate : current.length ≤
          (if current = [] then chunk else current ++ ['\n', '\n'] ++ chunk).length ∧
        chunk.length ≤
          (if current = [] then chunk else current ++ ['\n', '\n'] ++ chunk).length := by
      split_ifs with h
      · simp [h]
      · simp only [List.length_append]
        omega
    rw [packLoop]
    generalize (if current = [] then chunk else current ++ ['\n', '\n'] ++ chunk) = candidate
      at hcandidate ⊢
    split
    · rename_i hfits
      simp only [ih, List.forall_mem_cons]
      exact ⟨fun h => ⟨hcandidate.1.trans hfits, hcandidate.2.trans hfits, h.2⟩,
        fun h => ⟨hfits, h.2.2⟩⟩
    · simp only [List.forall_mem_append, hcurrent, ih, List.forall_mem_cons]

end WittyService

import Mathlib.Data.List.Basic

/-! The lines of a text of code points. -/
namespace CodeLines

/-- The letters that `str.splitlines` ends a line at. -/
def isLineEnd (c : ℕ) : Bool :=
  c ∈ [0x0a, 0x0b, 0x0c, 0x0d, 0x1c, 0x1d, 0x1e, 0x85, 0x2028, 0x2029]

def splitlines : List ℕ → List (List ℕ)
  | [] => []
  | [c] => if isLineEnd c then [[]] else [[c]]
  | c :: c' :: rest =>
    if c = 13 ∧ c' = 10 then [] :: splitlines rest
    else if isLineEnd c then [] :: splitlines (c' :: rest)
    else match splitlines (c' :: rest) with
      | [] => [[c]]
      | line :: others => (c :: line) :: others

variable {t line : List ℕ}

variable (rest : List ℕ)

theorem splitlines_break {c : ℕ} (hc : isLineEnd c) (hne : c ≠ 13) :
    splitlines (c :: rest) = [] :: splitlines rest := by
  cases rest with
  | nil =>
    unfold splitlines
    rw [if_pos hc]
  | cons c' rest => rw [splitlines, if_neg fun h => hne h.1, if_pos hc]

theorem splitlines_plain {c : ℕ} (c' : ℕ) (rest : List ℕ) (hc : isLineEnd c = false) :
    splitlines (c :: c' :: rest) =
      (c :: (splitlines (c' :: rest)).headD []) :: (splitlines (c' :: rest)).tail := by
  have hne : c ≠ 13 := by
    rintro rfl
    cases hc
  rw [splitlines, if_neg fun h => hne h.1, if_neg (by rw [hc]; exact Bool.false_ne_true)]
  cases splitlines (c' :: rest) with
  | nil | cons line others => rfl

theorem splitlines_ne_nil (c : ℕ) (rest : List ℕ) : splitlines (c :: rest) ≠ [] := by
  cases rest with
  | nil =>
    unfold splitlines
    split_ifs <;> exact List.cons_ne_nil _ _
  | cons c' rest =>
    by_cases hc : isLineEnd c
    · unfold splitlines
      split_ifs <;> exact List.cons_ne_nil _ _
    · rw [splitlines_plain c' rest (Bool.eq_false_iff.mpr hc)]
      exact List.cons_ne_nil _ _

theorem splitlines_line {e : ℕ} (h : ∀ c ∈ line, isLineEnd c = false)
    (he : isLineEnd e) (hne : e ≠ 13) :
    splitlines (line ++ e :: rest) = line :: splitlines rest := by
  induction line with
  | nil => exact splitlines_break rest he hne
  | cons c line ih =>
    have hrest := ih fun x hx => h x (List.mem_cons_of_mem _ hx)
    have hc := h c List.mem_cons_self
    cases line with
    | nil =>
      rw [List.cons_append, List.nil_append, splitlines_plain _ _ hc]
      rw [List.nil_append] at hrest
      rw [hrest]
      rfl
    | cons c' line =>
      rw [List.cons_append, List.cons_append, splitlines_plain _ _ hc, ← List.cons_append, hrest]
      rfl

theorem splitlines_append (t rest : List ℕ) :
    splitlines (t ++ 10 :: rest) = splitlines (t ++ [10]) ++ splitlines rest := by
  induction t using splitlines.induct with
  | case1 =>
    rw [List.nil_append, List.nil_append, splitlines_break rest rfl (by decide)]
    rfl
  | case2 c hc =>
    by_cases hne : c = 13
    · subst hne
      rw [List.cons_append, List.cons_append, List.nil_append, List.nil_append, splitlines,
        if_pos ⟨rfl, rfl⟩]
      rfl
    · rw [List.cons_append, List.cons_append, splitlines_break _ hc hne,
        splitlines_break _ hc hne, List.nil_append, List.nil_append,
        splitlines_break rest rfl (by decide)]
      rfl
  | case3 c hc =>
    have hc' := Bool.eq_false_iff.mpr hc
    rw [List.cons_append, List.cons_append, List.nil_append, List.nil_append,
      splitlines_plain _ _ hc', splitlines_plain _ _ hc', splitlines_break rest rfl (by decide)]
    rfl
  | case4 c c' t hcrlf ih =>
    obtain ⟨rfl, rfl⟩ := hcrlf
    rw [List.cons_append, List.cons_append, List.cons_append, List.cons_append, splitlines,
      if_pos ⟨rfl, rfl⟩, splitlines, if_pos ⟨rfl, rfl⟩, ih, List.cons_append]
  | case5 c c' t hcrlf hc ih =>
    rw [List.cons_append, List.cons_append, List.cons_append, List.cons_append, splitlines,
      if_neg hcrlf, if_pos hc, splitlines, if_neg hcrlf, if_pos hc, ← List.cons_append, ih,
      List.cons_append, List.cons_append]
  | case6 c c' t hcrlf hc _ ih | case7 c c' t hcrlf hc line others _ ih =>
    have hc' := Bool.eq_false_iff.mpr hc
    obtain ⟨line, others, hlines⟩ := List.exists_cons_of_ne_nil (splitlines_ne_nil c' (t ++ [10]))
    rw [List.cons_append, List.cons_append, List.cons_append, List.cons_append,
      splitlines_plain _ _ hc', splitlines_plain _ _ hc']
    rw [List.cons_append, List.cons_append, hlines] at ih
    rw [ih, hlines]
    rfl

end CodeLines

import WittyService.RuntimeTurns
import WittyService.UsageTotals

/-! What the loop of `run_turn` accumulates and sends for the events the hooks put out. -/
namespace WittyService

section
variable (plus : NumberAdd)

def RuntimeTurnEvent.usage (item : RuntimeTurnEvent) : Dict :=
  normalizeUsagePayload plus.add item.payload

def usages (items : List RuntimeTurnEvent) : List Dict :=
  (items.filter RuntimeTurnEvent.isUsage).map (RuntimeTurnEvent.usage plus)

def RuntimeTurnEvent.reports (item : RuntimeTurnEvent) : Bool :=
  item.isUsage && !(item.usage plus).isEmpty

variable {plus} {items pre post : List RuntimeTurnEvent} {item : RuntimeTurnEvent}

theorem not_terminal_of_isUsage (h : item.isUsage) : item.isTerminal = false := by
  rw [RuntimeTurnEvent.isTerminal, of_decide_eq_true h]
  rfl

theorem not_isUsage_of_terminal (h : item.isTerminal) : item.isUsage = false := by
  by_contra hne
  rw [Bool.not_eq_false] at hne
  rw [not_terminal_of_isUsage hne] at h
  cases h

section

variable (items : List RuntimeTurnEvent) (item : RuntimeTurnEvent)

theorem emitAll_concat :
    emitAll plus.add (items ++ [item]) = (emitAll plus.add items).emit plus.add item := by
  rw [emitAll, List.foldl_append]
  rfl

theorem usages_concat :
    usages plus (items ++ [item]) =
      if item.isUsage then usages plus items ++ [item.usage plus] else usages plus items := by
  rw [usages, List.filter_append, List.map_append]
  rw [List.filter_singleton]
  cases item.isUsage with
  | true => rfl
  | false => exact List.append_nil _

end

variable (out : TurnOutput)

/-- A mapped event adds to the usage, or is passed on, the first terminal one behind the usage
event if there is usage to report. -/
theorem emit_cases (item : RuntimeTurnEvent) : (item.isUsage ∧ out.emit plus.add item =
        { out with usageTotal := mergeUsage plus.add out.usageTotal (item.usage plus) }) ∨
      (item.isUsage = false ∧ (item.isTerminal ∧ out.usageTotal ≠ [] ∧ out.usageEmitted = false) ∧
        out.emit plus.add item =
          { out with usageEmitted := true, emitted := out.emitted ++ [.usage, .event item] }) ∨
      (item.isUsage = false ∧ ¬ (item.isTerminal ∧ out.usageTotal ≠ [] ∧ out.usageEmitted = false) ∧
        out.emit plus.add item = { out with emitted := out.emitted ++ [.event item] }) := by
  have hsend : (!out.usageTotal.isEmpty && !out.usageEmitted && item.isTerminal) = true ↔
      (item.isTerminal ∧ out.usageTotal ≠ [] ∧ out.usageEmitted = false) := by
    simp only [Bool.and_eq_true, Bool.not_eq_true', List.isEmpty_eq_false_iff]
    exact ⟨fun h => ⟨h.2, h.1.1, h.1.2⟩, fun h => ⟨⟨h.2.1, h.2.2⟩, h.1⟩⟩
  unfold TurnOutput.emit
  split_ifs with husage hsent
  · exact .inl ⟨husage, rfl⟩
  · exact .inr (.inl ⟨Bool.not_eq_true _ ▸ husage, hsend.mp hsent, rfl⟩)
  · exact .inr (.inr ⟨Bool.not_eq_true _ ▸ husage, fun h => hsent (hsend.mpr h), rfl⟩)

theorem usageTotal_emit (item : RuntimeTurnEvent) : (out.emit plus.add item).usageTotal =
      if item.isUsage then mergeUsage plus.add out.usageTotal (item.usage plus)
      else out.usageTotal := by
  obtain ⟨husage, heq⟩ | ⟨husage, -, heq⟩ | ⟨husage, -, heq⟩ := emit_cases out item
  · rw [heq, if_pos husage]
  · rw [heq, husage, if_neg Bool.false_ne_true]
  · rw [heq, husage, if_neg Bool.false_ne_true]

theorem usageTotal_emitAll (items : List RuntimeTurnEvent) :
    (emitAll plus.add items).usageTotal = (usages plus items).foldl (mergeUsage plus.add) [] := by
  induction items using List.reverseRecOn with
  | nil => rfl
  | append_singleton items item ih =>
    rw [emitAll_concat, usageTotal_emit, usages_concat]
    split_ifs
    · rw [List.foldl_append, ih]
      rfl
    · exact ih

theorem numeric_of_mem_usages {payload : Dict} (h : payload ∈ usages plus items) :
    payload.Numeric := by
  obtain ⟨item, -, rfl⟩ := List.mem_map.mp h
  exact numeric_normalizeUsagePayload plus item.payload

theorem get_usageTotal (items : List RuntimeTurnEvent) (key : String) :
    (emitAll plus.add items).usageTotal.Numeric ∧
      Dict.get (emitAll plus.add items).usageTotal key = fieldSum plus (usages plus items) key := by
  rw [usageTotal_emitAll]
  exact get_foldl_mergeUsage plus (fun _ h => numeric_of_mem_usages h) key

theorem set_ne_nil (d : Dict) (k : String) (value : Json) : Dict.set d k value ≠ [] := by
  intro h
  have hget := Dict.get_set d k value k
  rw [h, if_pos rfl] at hget
  cases hget

theorem mergeUsage_eq_nil (base extra : Dict) :
    mergeUsage plus.add base extra = [] ↔ base = [] ∧ extra = [] := by
  rw [mergeUsage_eq]
  induction extra generalizing base with
  | nil => rw [List.foldl_nil, and_iff_left rfl]
  | cons kv extra ih =>
    rw [List.foldl_cons, ih]
    have hne : mergeField plus base kv ≠ [] := by
      unfold mergeField
      split
      · exact set_ne_nil _ _ _
      · exact set_ne_nil _ _ _
    exact ⟨fun h => absurd h.1 hne, fun h => absurd h.2 (List.cons_ne_nil kv extra)⟩

theorem usageTotal_isEmpty (items : List RuntimeTurnEvent) :
    (emitAll plus.add items).usageTotal = [] ↔ ∀ item ∈ items, item.reports plus = false := by
  induction items using List.reverseRecOn with
  | nil => exact ⟨fun _ _ h => absurd h List.not_mem_nil, fun _ => rfl⟩
  | append_singleton items item ih =>
    rw [emitAll_concat, usageTotal_emit, List.forall_mem_append, List.forall_mem_singleton, ← ih,
      RuntimeTurnEvent.reports]
    split_ifs with husage
    · rw [mergeUsage_eq_nil, husage, Bool.true_and, Bool.not_eq_false', List.isEmpty_iff]
    · rw [Bool.not_eq_true] at husage
      rw [husage, Bool.false_and, and_iff_left rfl]

theorem usageEmitted_emit (item : RuntimeTurnEvent) : (out.emit plus.add item).usageEmitted = true ↔
      out.usageEmitted = true ∨ (item.isTerminal ∧ out.usageTotal ≠ []) := by
  obtain ⟨husage, heq⟩ | ⟨-, hsent, heq⟩ | ⟨-, hnot, heq⟩ := emit_cases out item
  · rw [heq, not_terminal_of_isUsage husage]
    simp
  · rw [heq]
    exact ⟨fun _ => .inr ⟨hsent.1, hsent.2.1⟩, fun _ => rfl⟩
  · rw [heq]
    refine ⟨.inl, fun h => ?_⟩
    obtain h | ⟨hterminal, hne⟩ := h
    · exact h
    · by_contra hemitted
      rw [Bool.not_eq_true] at hemitted
      exact hnot ⟨hterminal, hne, hemitted⟩

theorem usageEmitted_iff (items : List RuntimeTurnEvent) :
    (emitAll plus.add items).usageEmitted = true ↔
      ∃ pre item, pre ++ [item] <+: items ∧ item.isTerminal ∧ ∃ r ∈ pre, r.reports plus := by
  induction items using List.reverseRecOn with
  | nil =>
    constructor
    · intro h
      cases h
    · rintro ⟨pre, item, hinitial, -⟩
      exact absurd (List.prefix_nil.mp hinitial) (List.append_ne_nil_of_right_ne_nil pre
        (List.cons_ne_nil item []))
  | append_singleton items last ih =>
    rw [emitAll_concat, usageEmitted_emit, ih, Ne, usageTotal_isEmpty]
    constructor
    · rintro (⟨pre, item, hinitial, h⟩ | ⟨hterminal, hreports⟩)
      · exact ⟨pre, item, hinitial.trans (List.prefix_append items [last]), h⟩
      · push Not at hreports
        simp only [ne_eq, Bool.not_eq_false] at hreports
        exact ⟨items, last, List.prefix_refl _, hterminal, hreports⟩
    · rintro ⟨pre, item, hinitial, hterminal, r, hr, hreports⟩
      obtain heq | hinitial := List.prefix_concat_iff.mp hinitial
      · obtain ⟨rfl, rfl⟩ := List.append_singleton_inj.mp heq
        refine .inr ⟨hterminal, fun hall => ?_⟩
        rw [hall r hr] at hreports
        cases hreports
      · exact .inl ⟨pre, item, hinitial, hterminal, r, hr, hreports⟩

theorem emitted_of_early (h : ∀ item ∈ items, item.isTerminal = false) :
    (∀ e ∈ (emitAll plus.add items).emitted, e.isTerminal = false ∧ e.isUsage = false) := by
  induction items using List.reverseRecOn with
  | nil => exact fun e he => absurd he List.not_mem_nil
  | append_singleton items item ih =>
    rw [List.forall_mem_append, List.forall_mem_singleton] at h
    rw [emitAll_concat]
    obtain ⟨-, heq⟩ | ⟨-, hsent, -⟩ | ⟨husage, -, heq⟩ := emit_cases (emitAll plus.add items) item
    · rw [heq]
      exact ih h.1
    · rw [h.2] at hsent
      cases hsent.1
    · rw [heq]
      intro e he
      obtain he | he := List.mem_append.mp he
      · exact ih h.1 e he
      · rw [List.mem_singleton.mp he]
        exact ⟨h.2, husage⟩

theorem countP_emitAll (items : List RuntimeTurnEvent) :
    (emitAll plus.add items).emitted.countP Emitted.isUsage =
      if (emitAll plus.add items).usageEmitted then 1 else 0 := by
  induction items using List.reverseRecOn with
  | nil => rfl
  | append_singleton items item ih =>
    rw [emitAll_concat]
    have hevent (hnot : item.isUsage = false) :
        [Emitted.event item].countP Emitted.isUsage = 0 := by
      rw [List.countP_singleton]
      exact if_neg (Bool.eq_false_iff.mp hnot)
    obtain ⟨-, heq⟩ | ⟨husage, hsent, heq⟩ | ⟨husage, -, heq⟩ :=
      emit_cases (emitAll plus.add items) item
    · rw [heq]
      exact ih
    · rw [hsent.2.2, if_neg Bool.false_ne_true] at ih
      rw [heq, if_pos rfl, List.countP_append, ih,
        List.countP_cons_of_pos (a := Emitted.usage) rfl, hevent husage]
    · rw [heq, List.countP_append, hevent husage]
      exact ih

theorem emitted_mono (h : pre <+: items) :
    (emitAll plus.add pre).emitted <+: (emitAll plus.add items).emitted := by
  obtain ⟨rest, rfl⟩ := h
  induction rest using List.reverseRecOn with
  | nil => exact (List.append_nil pre).symm ▸ List.prefix_refl _
  | append_singleton rest item ih =>
    rw [← List.append_assoc, emitAll_concat]
    refine ih.trans ?_
    obtain ⟨-, heq⟩ | ⟨-, -, heq⟩ | ⟨-, -, heq⟩ := emit_cases (emitAll plus.add (pre ++ rest)) item
    · exact heq ▸ List.prefix_refl _
    · exact heq ▸ List.prefix_append _ _
    · exact heq ▸ List.prefix_append _ _

theorem eq_of_countP_le_one {α : Type} {p : α → Bool} {x y : α} (hx : p x) (hy : p y) :
    ∀ {a b c d : List α}, a ++ x :: b = c ++ y :: d → (a ++ x :: b).countP p ≤ 1 → a = c
  | [], _, [], _, _, _ => rfl
  | [], b, z :: c, d, h, hcount => by
    rw [List.nil_append, List.cons_append, List.cons.injEq] at h
    rw [List.nil_append, List.countP_cons_of_pos hx, h.2, List.countP_append,
      List.countP_cons_of_pos hy] at hcount
    omega
  | z :: a, b, [], d, h, hcount => by
    rw [List.nil_append, List.cons_append, List.cons.injEq] at h
    rw [List.cons_append, h.1, List.countP_cons_of_pos hy, List.countP_append,
      List.countP_cons_of_pos hx] at hcount
    omega
  | z :: a, b, w :: c, d, h, hcount => by
    rw [List.cons_append, List.cons_append, List.cons.injEq] at h
    rw [List.cons_append, List.countP_cons] at hcount
    rw [h.1, eq_of_countP_le_one hx hy h.2 (by omega)]

theorem usage_mem_emitAll (items : List RuntimeTurnEvent) :
    .usage ∈ (emitAll plus.add items).emitted ↔ (emitAll plus.add items).usageEmitted = true := by
  induction items using List.reverseRecOn with
  | nil => exact ⟨fun h => absurd h List.not_mem_nil, fun h => nomatch h⟩
  | append_singleton items item ih =>
    rw [emitAll_concat]
    obtain ⟨-, heq⟩ | ⟨-, -, heq⟩ | ⟨-, -, heq⟩ := emit_cases (emitAll plus.add items) item
    · rw [heq]
      exact ih
    · rw [heq]
      refine ⟨fun _ => rfl, fun _ => List.mem_append_right _ List.mem_cons_self⟩
    · rw [heq, List.mem_append, List.mem_singleton]
      exact ⟨fun h => ih.mp (h.resolve_right nofun), fun h => .inl (ih.mpr h)⟩

theorem event_mem_emitAll (items : List RuntimeTurnEvent) (e : RuntimeTurnEvent) :
    .event e ∈ (emitAll plus.add items).emitted ↔ e ∈ items ∧ e.isUsage = false := by
  induction items using List.reverseRecOn with
  | nil => exact iff_of_false List.not_mem_nil fun h => absurd h.1 List.not_mem_nil
  | append_singleton items item ih =>
    have hitem : (item.isUsage = false ∧ e = item) ↔ (e = item ∧ e.isUsage = false) :=
      ⟨fun h => ⟨h.2, h.2 ▸ h.1⟩, fun h => ⟨h.1 ▸ h.2, h.1⟩⟩
    rw [emitAll_concat, List.mem_append, List.mem_singleton, or_and_right, ← hitem]
    obtain ⟨husage, heq⟩ | ⟨husage, -, heq⟩ | ⟨husage, -, heq⟩ :=
      emit_cases (emitAll plus.add items) item
    · rw [heq, ih, husage]
      simp
    · rw [heq, List.mem_append, ih, husage]
      simp
    · rw [heq, List.mem_append, ih, husage]
      simp

variable (plus) in
theorem emitted_append_terminal (items : List RuntimeTurnEvent) (more : List RuntimeTurnEvent)
    (hmore : ∀ e ∈ more, e.isTerminal) :
    ∃ usage, (∀ e ∈ usage, e = Emitted.usage) ∧ (emitAll plus.add (items ++ more)).emitted =
        (emitAll plus.add items).emitted ++ usage ++ more.map Emitted.event ∧
      (more = [] → usage = []) ∧ (more ≠ [] → (emitAll plus.add (items ++ more)).usageTotal ≠ [] →
        (emitAll plus.add (items ++ more)).usageEmitted = true) := by
  induction more using List.reverseRecOn with
  | nil =>
    refine ⟨[], fun e he => absurd he List.not_mem_nil, ?_, fun _ => rfl, fun h => absurd rfl h⟩
    rw [List.append_nil, List.append_nil, List.map_nil, List.append_nil]
  | append_singleton more item ih =>
    rw [List.forall_mem_append, List.forall_mem_singleton] at hmore
    obtain ⟨usage, husage, hemitted, hnil, hcons⟩ := ih hmore.1
    have hne : more ++ [item] ≠ [] := List.append_ne_nil_of_right_ne_nil _ (List.cons_ne_nil _ _)
    rw [← List.append_assoc, emitAll_concat, List.map_append]
    obtain ⟨hitem, -⟩ | ⟨-, hsent, heq⟩ | ⟨-, hnot, heq⟩ :=
      emit_cases (emitAll plus.add (items ++ more)) item
    · rw [not_terminal_of_isUsage hitem] at hmore
      cases hmore.2
    · obtain rfl : more = [] := by
        by_contra hne
        rw [hcons hne hsent.2.1] at hsent
        cases hsent.2.2
      refine ⟨[.usage], fun e he => List.mem_singleton.mp he, ?_, fun h => absurd h hne, ?_⟩
      · rw [heq, hemitted, hnil rfl]
        simp
      · rw [heq]
        exact fun _ _ => rfl
    · refine ⟨usage, husage, ?_, fun h => absurd h hne, ?_⟩
      · rw [heq, hemitted, List.append_assoc]
        rfl
      · rw [heq]
        intro _ htotal
        by_contra hemitted
        rw [Bool.not_eq_true] at hemitted
        exact hnot ⟨hmore.2, htotal, hemitted⟩

variable (plus) in
theorem emitted_append_eq_iff (items more : List RuntimeTurnEvent) :
    (emitAll plus.add (items ++ more)).emitted = (emitAll plus.add items).emitted ↔
      ∀ e ∈ more, e.isUsage := by
  induction more using List.reverseRecOn with
  | nil =>
    rw [List.append_nil]
    exact iff_of_true rfl fun e he => absurd he List.not_mem_nil
  | append_singleton more item ih =>
    rw [← List.append_assoc, emitAll_concat, List.forall_mem_append, List.forall_mem_singleton]
    have hlength : (emitAll plus.add items).emitted.length ≤
        (emitAll plus.add (items ++ more)).emitted.length :=
      (emitted_mono (List.prefix_append items more)).length_le
    obtain ⟨husage, heq⟩ | ⟨husage, -, heq⟩ | ⟨husage, -, heq⟩ :=
      emit_cases (emitAll plus.add (items ++ more)) item
    · rw [heq, and_iff_left husage]
      exact ih
    · rw [heq]
      refine iff_of_false (fun h => ?_) fun h => Bool.eq_false_iff.mp husage h.2
      have hlen := congrArg List.length h
      rw [List.length_append, List.length_cons, List.length_singleton] at hlen
      omega
    · rw [heq]
      refine iff_of_false (fun h => ?_) fun h => Bool.eq_false_iff.mp husage h.2
      have hlen := congrArg List.length h
      rw [List.length_append, List.length_singleton] at hlen
      omega

theorem usageEmitted_append_usage (items : List RuntimeTurnEvent) {more : List RuntimeTurnEvent}
    (hmore : ∀ e ∈ more, e.isUsage) :
    (emitAll plus.add (items ++ more)).usageEmitted = (emitAll plus.add items).usageEmitted := by
  induction more using List.reverseRecOn with
  | nil => rw [List.append_nil]
  | append_singleton more item ih =>
    rw [List.forall_mem_append, List.forall_mem_singleton] at hmore
    rw [← ih hmore.1, ← List.append_assoc, emitAll_concat, Bool.eq_iff_iff, usageEmitted_emit,
      not_terminal_of_isUsage hmore.2]
    simp

end

end WittyService

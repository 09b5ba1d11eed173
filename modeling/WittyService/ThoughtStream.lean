import Mathlib.Data.List.Infix
import WittyService.OpenClawRuntime

/-! A thought that comes in deltas and once as a whole. The rest of the whole that no delta has
brought is sent ahead, and taken off the deltas that come late. -/
namespace WittyService

/-- What brings a thought: the whole of it, or a delta with the text so far. -/
inductive Thought where
  | block (text : List Char)
  | delta (delta : List Char) (text : Option (List Char))
  deriving DecidableEq

/-- `acc_thinking` and `thinking_suppress`. -/
structure ThoughtState where
  acc : List Char := []
  suppress : List Char := []

namespace ThoughtState

/-- The part of `_on_thinking_event` about the state and what is sent ahead. -/
def onBlock (s : ThoughtState) (text : List Char) : List Char × ThoughtState :=
  if s.acc ≠ [] ∧ s.acc <+: text ∧ s.acc.length < text.length then
    (text.drop s.acc.length, ⟨text, text.drop s.acc.length⟩)
  else ([], ⟨text, []⟩)

/-- The part of `_on_thinking_delta_event` about the state and what is left of the delta. -/
def onDelta (s : ThoughtState) (delta : List Char) (text : Option (List Char)) :
    List Char × ThoughtState :=
  let sameBlock := text.any fun text => s.acc.isPrefixOf text || text.isPrefixOf s.acc
  let suppress := if sameBlock then s.suppress else []
  let common := OpenClawRuntime.commonLength suppress delta
  if suppress ≠ [] ∧ common = delta.length then ([], { s with suppress := suppress.drop common })
  else
    (delta.drop common,
      ⟨(text.filter (· ≠ [])).getD (s.acc ++ delta.drop common),
        if common = 0 then [] else suppress.drop common⟩)

def on (s : ThoughtState) : Thought → List Char × ThoughtState
  | .block text => s.onBlock text
  | .delta delta text => s.onDelta delta text

def run : ThoughtState → List Thought → List Char × ThoughtState
  | s, [] => ([], s)
  | s, thought :: thoughts =>
    ((s.on thought).1 ++ ((s.on thought).2.run thoughts).1, ((s.on thought).2.run thoughts).2)

theorem run_append (s : ThoughtState) (thoughts more : List Thought) :
    s.run (thoughts ++ more) =
      ((s.run thoughts).1 ++ ((s.run thoughts).2.run more).1, ((s.run thoughts).2.run more).2) := by
  induction thoughts generalizing s with
  | nil => rfl
  | cons thought thoughts ih =>
    rw [List.cons_append, run, ih, run, List.append_assoc]

end ThoughtState

def streamedAs : List Char → List (List Char) → List Thought
  | _, [] => []
  | soFar, delta :: deltas =>
    .delta delta (some (soFar ++ delta)) :: streamedAs (soFar ++ delta) deltas

theorem exists_mem_streamedAs {delta : List Char} {deltas : List (List Char)} (h : delta ∈ deltas)
    (soFar : List Char) : ∃ text, Thought.delta delta text ∈ streamedAs soFar deltas := by
  induction deltas generalizing soFar with
  | nil => exact absurd h List.not_mem_nil
  | cons first deltas ih =>
    obtain rfl | h := List.mem_cons.mp h
    · exact ⟨_, List.mem_cons_self⟩
    · obtain ⟨text, htext⟩ := ih h (soFar ++ first)
      exact ⟨text, List.mem_cons_of_mem _ htext⟩

theorem block_not_mem_streamedAs (text soFar : List Char) (deltas : List (List Char)) :
    Thought.block text ∉ streamedAs soFar deltas := by
  induction deltas generalizing soFar with
  | nil => exact List.not_mem_nil
  | cons delta deltas ih =>
    intro h
    obtain h | h := List.mem_cons.mp h
    · cases h
    · exact ih _ h

theorem commonLength_of_begin {xs ys text : List Char} (hxs : xs <+: text) (hys : ys <+: text) :
    OpenClawRuntime.commonLength xs ys = min xs.length ys.length := by
  induction text generalizing xs ys with
  | nil =>
    rw [List.prefix_nil.mp hxs, List.prefix_nil.mp hys]
    rfl
  | cons c text ih =>
    cases xs with
    | nil => exact (Nat.zero_min _).symm
    | cons x xs =>
      cases ys with
      | nil => exact (Nat.min_zero _).symm
      | cons y ys =>
        have hxs := List.cons_prefix_cons.mp hxs
        have hys := List.cons_prefix_cons.mp hys
        rw [OpenClawRuntime.commonLength, if_pos (hxs.1.trans hys.1.symm), ih hxs.2 hys.2,
          List.length_cons, List.length_cons, Nat.add_min_add_right]

namespace ThoughtState

variable {s : ThoughtState} {soFar delta rest : List Char}

theorem onDelta_dropped (hsuppress : s.suppress ≠ []) (hahead : delta <+: s.suppress)
    (hacc : soFar ++ delta <+: s.acc) :
    s.onDelta delta (some (soFar ++ delta)) =
      ([], { s with suppress := s.suppress.drop delta.length }) := by
  have hsame : (some (soFar ++ delta)).any
      (fun text => s.acc.isPrefixOf text || text.isPrefixOf s.acc) = true := by
    rw [Option.any_some, List.isPrefixOf_iff_prefix.mpr hacc, Bool.or_true]
  have hcommon : OpenClawRuntime.commonLength s.suppress delta = delta.length := by
    rw [commonLength_of_begin (List.prefix_refl _) hahead]
    exact Nat.min_eq_right hahead.length_le
  rw [onDelta, hsame, if_pos rfl, hcommon]
  exact if_pos ⟨hsuppress, rfl⟩

theorem onDelta_kept (hahead : s.suppress <+: delta) (hne : s.suppress ≠ delta)
    (hacc : s.suppress ≠ [] → soFar ++ delta <+: s.acc) :
    s.onDelta delta (some (soFar ++ delta)) =
      (delta.drop s.suppress.length, ⟨soFar ++ delta, []⟩) := by
  have hlt : s.suppress.length < delta.length :=
    lt_of_le_of_ne hahead.length_le fun h => hne (hahead.eq_of_length h)
  have hsuppress : (if (some (soFar ++ delta)).any
      (fun text => s.acc.isPrefixOf text || text.isPrefixOf s.acc) then s.suppress else []) =
        s.suppress := by
    by_cases hnil : s.suppress = []
    · rw [hnil, ite_self]
    · rw [Option.any_some, List.isPrefixOf_iff_prefix.mpr (hacc hnil), Bool.or_true, if_pos rfl]
  have hcommon : OpenClawRuntime.commonLength s.suppress delta = s.suppress.length := by
    rw [commonLength_of_begin hahead (List.prefix_refl _)]
    exact Nat.min_eq_left hahead.length_le
  have htext : (some (soFar ++ delta)).filter (· ≠ []) = some (soFar ++ delta) := by
    rw [Option.filter_eq_some_iff]
    refine ⟨rfl, decide_eq_true fun h => ?_⟩
    rw [(List.append_eq_nil_iff.mp h).2] at hlt
    exact Nat.not_lt_zero _ hlt
  rw [onDelta, hsuppress, hcommon, htext, if_neg fun h => hlt.ne h.2, Option.getD_some,
    List.drop_length, ite_self]

theorem run_streamedAs {deltas : List (List Char)} (hne : ∀ delta ∈ deltas, delta ≠ [])
    (hahead : s.suppress <+: deltas.flatten)
    (hacc : s.suppress ≠ [] → s.acc = soFar ++ deltas.flatten) :
    s.run (streamedAs soFar deltas) =
      (deltas.flatten.drop s.suppress.length,
        ⟨if deltas = [] then s.acc else soFar ++ deltas.flatten, []⟩) := by
  induction deltas generalizing s soFar with
  | nil =>
    obtain ⟨acc, suppress⟩ := s
    obtain rfl := List.prefix_nil.mp hahead
    rfl
  | cons delta deltas ih =>
    obtain ⟨hdelta, hne⟩ := List.forall_mem_cons.mp hne
    rw [List.flatten_cons] at hahead hacc ⊢
    have hlast : ∀ acc, (deltas = [] → acc = soFar ++ delta) →
        (if deltas = [] then acc else soFar ++ delta ++ deltas.flatten) =
          soFar ++ (delta ++ deltas.flatten) := by
      intro acc hnil
      split
      · next h => rw [hnil h, h, List.flatten_nil, List.append_nil]
      · rw [List.append_assoc]
    rw [streamedAs, run, on, if_neg (List.cons_ne_nil _ _)]
    -- Either the whole delta was sent ahead, or what was sent ahead ends within it.
    by_cases hdrop : s.suppress ≠ [] ∧ delta <+: s.suppress
    · obtain ⟨hsuppress, ahead, hsplit⟩ := hdrop
      have hs := hacc hsuppress
      have hrest : s.suppress.drop delta.length = ahead := by
        rw [← hsplit, List.drop_left]
      have hlength : s.suppress.length = delta.length + ahead.length := by
        rw [← hsplit, List.length_append]
      rw [← hsplit, List.prefix_append_right_inj] at hahead
      rw [onDelta_dropped hsuppress ⟨ahead, hsplit⟩
        (hs ▸ (List.prefix_append_right_inj soFar).mpr (List.prefix_append _ _)), hrest,
        ih hne hahead fun _ => by rw [hs, List.append_assoc]]
      have hend : deltas = [] → s.acc = soFar ++ delta := by
        intro h
        rw [hs, h, List.flatten_nil, List.append_nil]
      rw [hlast s.acc hend, List.nil_append, hlength, List.drop_length_add_append]
    · have hwithin : s.suppress <+: delta ∧ s.suppress ≠ delta := by
        by_cases hnil : s.suppress = []
        · rw [hnil]
          exact ⟨List.nil_prefix, hdelta.symm⟩
        · have hnot : ¬ delta <+: s.suppress := fun h => hdrop ⟨hnil, h⟩
          refine ⟨?_, fun h => hnot (h ▸ List.prefix_refl _)⟩
          exact (List.prefix_or_prefix_of_prefix hahead (List.prefix_append _ _)).resolve_right hnot
      rw [onDelta_kept hwithin.1 hwithin.2 fun h =>
        hacc h ▸ (List.prefix_append_right_inj soFar).mpr (List.prefix_append _ _),
        ih hne List.nil_prefix fun h => absurd rfl h, hlast _ fun _ => rfl]
      rw [List.length_nil, List.drop_zero, List.drop_append_of_le_length hwithin.1.length_le]

theorem onBlock_cases (s : ThoughtState) (text : List Char) :
    (s.acc ≠ [] ∧ s.acc <+: text ∧ s.acc ≠ text ∧
      s.onBlock text = (text.drop s.acc.length, ⟨text, text.drop s.acc.length⟩)) ∨
    ((s.acc = [] ∨ ¬ s.acc <+: text ∨ s.acc = text) ∧ s.onBlock text = ([], ⟨text, []⟩)) := by
  unfold onBlock
  split
  · next h =>
    obtain ⟨hne, hbegin, hlt⟩ := h
    refine .inl ⟨hne, hbegin, fun h => ?_, rfl⟩
    rw [h] at hlt
    exact lt_irrefl _ hlt
  · next h =>
    refine .inr ⟨?_, rfl⟩
    by_contra! hnot
    obtain ⟨hne, hbegin, htext⟩ := hnot
    exact h ⟨hne, hbegin, lt_of_le_of_ne hbegin.length_le fun hlength =>
      htext (hbegin.eq_of_length hlength)⟩

end ThoughtState

/-- What comes for one thought: its deltas, and between them the whole of it where it is told. -/
structure ThoughtBlock where
  text : List Char
  early : List (List Char)
  late : List (List Char)
  told : Bool
  splits : early.flatten ++ late.flatten = text
  deltas_ne_nil : ∀ delta ∈ early ++ late, delta ≠ []
  told_ne_nil : told = true → text ≠ []

namespace ThoughtBlock

variable (block : ThoughtBlock) (previous : List Char)

def thoughts : List Thought :=
  streamedAs [] block.early ++ (if block.told then [.block block.text] else []) ++
    streamedAs block.early.flatten block.late

/-- The whole comes before any delta and is taken for the rest of the thought before it, without
being a repetition of it. -/
def Overtakes : Prop :=
  block.told = true ∧ block.early = [] ∧ previous ≠ [] ∧ previous <+: block.text ∧
    previous ≠ block.text ∧ ¬ block.text.drop previous.length <+: block.text

def known : List Char := if block.text = [] then previous else block.text

end ThoughtBlock

namespace ThoughtState

theorem flatten_eq_nil_iff {deltas : List (List Char)} (hne : ∀ delta ∈ deltas, delta ≠ []) :
    deltas.flatten = [] ↔ deltas = [] := by
  rw [List.flatten_eq_nil_iff]
  constructor
  · intro h
    cases deltas with
    | nil => rfl
    | cons delta deltas => exact absurd (h delta List.mem_cons_self) (hne delta List.mem_cons_self)
  · rintro rfl
    exact fun _ h => absurd h List.not_mem_nil

variable (block : ThoughtBlock) (previous : List Char)

theorem run_early : run ⟨previous, []⟩ (streamedAs [] block.early) =
    (block.early.flatten, ⟨if block.early = [] then previous else block.early.flatten, []⟩) :=
  run_streamedAs (fun delta h => block.deltas_ne_nil delta (List.mem_append_left _ h))
    List.nil_prefix fun h => absurd rfl h

variable {ahead : List Char}

theorem run_late (hahead : ahead <+: block.late.flatten) :
    run ⟨block.text, ahead⟩ (streamedAs block.early.flatten block.late) =
      (block.late.flatten.drop ahead.length, ⟨block.text, []⟩) := by
  rw [run_streamedAs (fun delta h => block.deltas_ne_nil delta (List.mem_append_right _ h)) hahead
    fun _ => block.splits.symm, block.splits, ite_self]

theorem run_untold (htold : block.told = false) :
    run ⟨previous, []⟩ block.thoughts = (block.text, ⟨block.known previous, []⟩) := by
  have hlate := fun delta h => block.deltas_ne_nil delta (List.mem_append_right _ h)
  have hempty : block.text = [] ↔ block.early = [] ∧ block.late = [] := by
    rw [← block.splits, List.append_eq_nil_iff,
      flatten_eq_nil_iff fun delta h => block.deltas_ne_nil delta (List.mem_append_left _ h),
      flatten_eq_nil_iff hlate]
  rw [ThoughtBlock.thoughts, htold, if_neg Bool.false_ne_true, List.append_nil, run_append,
    run_early, run_streamedAs hlate List.nil_prefix fun h => absurd rfl h]
  rw [List.length_nil, List.drop_zero, block.splits, ThoughtBlock.known]
  congr 2
  split
  · next hnil =>
    split
    · next hearly => rw [if_pos (hempty.mpr ⟨hearly, hnil⟩)]
    · next hearly =>
      rw [if_neg fun h => hearly (hempty.mp h).1, ← block.splits, hnil, List.flatten_nil,
        List.append_nil]
  · next hne => rw [if_neg fun h => hne (hempty.mp h).2]

theorem run_told (htold : block.told = true)
    (hblock : onBlock ⟨if block.early = [] then previous else block.early.flatten, []⟩ block.text =
      (ahead, ⟨block.text, ahead⟩)) :
    run ⟨previous, []⟩ block.thoughts =
      (block.early.flatten ++ ahead ++
          (run ⟨block.text, ahead⟩ (streamedAs block.early.flatten block.late)).1,
        (run ⟨block.text, ahead⟩ (streamedAs block.early.flatten block.late)).2) := by
  rw [ThoughtBlock.thoughts, htold, if_pos rfl, run_append, run_append, run_early]
  dsimp only [run, on]
  rw [hblock, List.append_nil]

theorem run_block :
    (¬ block.Overtakes previous →
      run ⟨previous, []⟩ block.thoughts = (block.text, ⟨block.known previous, []⟩)) ∧
    (block.Overtakes previous → (run ⟨previous, []⟩ block.thoughts).1 ≠ block.text) := by
  cases htold : block.told with
  | false =>
    refine ⟨fun _ => run_untold block previous htold, fun h => ?_⟩
    rw [h.1] at htold
    cases htold
  | true =>
    have hknown : block.known previous = block.text := if_neg (block.told_ne_nil htold)
    rw [hknown]
    obtain ⟨hne, hbegin, htext, hblock⟩ | ⟨hnothing, hblock⟩ := onBlock_cases
      ⟨if block.early = [] then previous else block.early.flatten, []⟩ block.text
    · rw [run_told block previous htold hblock]
      by_cases hearly : block.early = []
      · have hlate : block.late.flatten = block.text := by
          rw [← block.splits, hearly, List.flatten_nil, List.nil_append]
        rw [if_pos hearly] at hne hbegin htext ⊢
        rw [hearly, List.flatten_nil, List.nil_append]
        constructor
        · -- What is sent ahead is also the beginning of the text, and is taken off its deltas.
          intro hnot
          have hahead : block.text.drop previous.length <+: block.text := by
            by_contra h
            exact hnot ⟨htold, hearly, hne, hbegin, htext, h⟩
          have hrun := run_late block (hlate.symm ▸ hahead :
            block.text.drop previous.length <+: block.late.flatten)
          rw [hearly, List.flatten_nil] at hrun
          rw [hrun, hlate, List.prefix_iff_eq_append.mp hahead]
        · intro h heq
          exact h.2.2.2.2.2 ⟨_, heq⟩
      · rw [if_neg hearly]
        have hrest : block.text.drop block.early.flatten.length = block.late.flatten := by
          rw [← block.splits, List.drop_left]
        rw [hrest, run_late block (List.prefix_refl _), List.drop_length, List.append_nil,
          block.splits]
        exact ⟨fun _ => rfl, fun h => absurd h.2.1 hearly⟩
    · rw [run_told block previous htold hblock, run_late block List.nil_prefix, List.append_nil,
        List.length_nil, List.drop_zero, block.splits]
      refine ⟨fun _ => rfl, fun h => ?_⟩
      obtain ⟨-, hearly, hne, hbegin, htext, -⟩ := h
      rw [if_pos hearly] at hnothing
      obtain h | h | h := hnothing
      · exact absurd h hne
      · exact absurd hbegin h
      · exact absurd h htext

end ThoughtState

end WittyService

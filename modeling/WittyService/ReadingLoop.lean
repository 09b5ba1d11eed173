import Mathlib.Data.List.Basic

/-! Loops that read inputs one by one and pass some of them on, until one of them stops the loop or
raises. What such a loop comes to is found at one of its inputs, in the state before it. -/
namespace ReadingLoop

variable {σ ι ε : Type*}

/-- What a loop does with an input, having passed at most one item on. -/
inductive Outcome (σ ε : Type*) where
  | goes (s : σ) (passed : Option ε)
  | stops (passed : Option ε)
  | raises (passed : Option ε)

/-- How a loop ends: by an input, by an exception, or not before its inputs end. -/
inductive StreamEnd where
  | stopped
  | raised
  | exhausted
  deriving DecidableEq, Repr

def stream (step : σ → ι → Outcome σ ε) : σ → List ι → List ε × StreamEnd
  | _, [] => ([], .exhausted)
  | s, i :: is =>
    match step s i with
    | .goes s passed => (passed.toList ++ (stream step s is).1, (stream step s is).2)
    | .stops passed => (passed.toList, .stopped)
    | .raises passed => (passed.toList, .raised)

/-- The state after the inputs, `none` when the loop has ended. -/
def after (step : σ → ι → Outcome σ ε) : σ → List ι → Option σ
  | s, [] => some s
  | s, i :: is =>
    match step s i with
    | .goes s _ => after step s is
    | _ => none

def Outcome.closes (mark : ε → Bool) : Outcome σ ε → Bool
  | .goes _ passed | .stops passed => passed.any mark
  | .raises _ => true

/-- One of the inputs the loop reads raises or makes it pass on an item that is marked. -/
def Closes (step : σ → ι → Outcome σ ε) (mark : ε → Bool) (s : σ) (is : List ι) : Prop :=
  ∃ pre i post s', is = pre ++ i :: post ∧ after step s pre = some s' ∧
    (step s' i).closes mark = true

variable {step : σ → ι → Outcome σ ε} {mark : ε → Bool}

section
variable {s s' : σ} {i : ι} {passed : Option ε}

theorem stream_goes (h : step s i = .goes s' passed) (is : List ι) :
    stream step s (i :: is) =
      (passed.toList ++ (stream step s' is).1, (stream step s' is).2) := by
  rw [stream, h]

theorem stream_stops (h : step s i = .stops passed) (is : List ι) :
    stream step s (i :: is) = (passed.toList, .stopped) := by
  rw [stream, h]

theorem stream_raises (h : step s i = .raises passed) (is : List ι) :
    stream step s (i :: is) = (passed.toList, .raised) := by
  rw [stream, h]

end

variable (s : σ)

theorem closes_cons_iff (i : ι) (is : List ι) :
    Closes step mark s (i :: is) ↔ (step s i).closes mark = true ∨
      ∃ s' passed, step s i = .goes s' passed ∧ Closes step mark s' is := by
  constructor
  · rintro ⟨pre, j, post, t, heq, hafter, hcloses⟩
    -- the input in question is the first one, or comes behind it
    cases pre with
    | nil =>
      cases heq
      cases hafter
      exact .inl hcloses
    | cons k pre =>
      obtain ⟨rfl, rfl⟩ := heq
      rw [after] at hafter
      split at hafter
      next s' passed hstep => exact .inr ⟨s', passed, hstep, pre, j, post, t, rfl, hafter, hcloses⟩
      · cases hafter
  · rintro (hcloses | ⟨s', passed, hstep, pre, j, post, t, rfl, hafter, hcloses⟩)
    · exact ⟨[], i, is, s, rfl, rfl, hcloses⟩
    · refine ⟨i :: pre, j, post, t, rfl, ?_, hcloses⟩
      rw [after, hstep]
      exact hafter

theorem exists_mem_toList (passed : Option ε) :
    (∃ e ∈ passed.toList, mark e = true) ↔ passed.any mark = true := by
  cases passed with
  | none => exact iff_of_false (fun ⟨_, h, _⟩ => List.not_mem_nil h) Bool.false_ne_true
  | some e => exact ⟨fun ⟨_, h, hm⟩ => List.mem_singleton.mp h ▸ hm,
      fun h => ⟨e, List.mem_singleton_self e, h⟩⟩

theorem stream_closes_iff (is : List ι) :
    ((stream step s is).2 = .raised ∨ ∃ e ∈ (stream step s is).1, mark e = true) ↔
      Closes step mark s is := by
  induction is generalizing s with
  | nil =>
    refine iff_of_false ?_ ?_
    · rintro (h | ⟨e, h, -⟩)
      · cases h
      · cases h
    · rintro ⟨pre, i, post, -, h, -⟩
      exact List.append_ne_nil_of_right_ne_nil pre (List.cons_ne_nil i post) h.symm
  | cons i is ih =>
    rw [closes_cons_iff, stream]
    cases hstep : step s i with
    | goes s' passed =>
      simp only [List.mem_append, or_and_right, exists_or, exists_mem_toList, Outcome.closes,
        Outcome.goes.injEq]
      constructor
      · rintro (h | h | h)
        · exact .inr ⟨s', passed, ⟨rfl, rfl⟩, (ih s').mp (.inl h)⟩
        · exact .inl h
        · exact .inr ⟨s', passed, ⟨rfl, rfl⟩, (ih s').mp (.inr h)⟩
      · rintro (h | ⟨_, _, ⟨rfl, rfl⟩, h⟩)
        · exact .inr (.inl h)
        · exact ((ih _).mpr h).imp_right .inr
    | stops passed =>
      simp only [exists_mem_toList, Outcome.closes, reduceCtorEq, false_and, exists_false, or_false,
        false_or]
    | raises passed => exact iff_of_true (.inl rfl) (.inl rfl)

theorem stream_exhausted_iff (is : List ι) :
    (stream step s is).2 = .exhausted ↔ (after step s is).isSome := by
  induction is generalizing s with
  | nil => exact iff_of_true rfl rfl
  | cons i is ih =>
    rw [stream, after]
    cases step s i with
    | goes s' passed => exact ih s'
    | stops passed | raises passed => exact iff_of_false nofun Bool.false_ne_true

end ReadingLoop

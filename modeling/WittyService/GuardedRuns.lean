import Mathlib.Logic.Basic

/-! Runs of a partial step function. An action that is not enabled stops the run.
`Always` follows the states of a run and `Guarded` follows its steps, so that an
invariant that needs a condition on each step can be stated about whole runs. -/
namespace GuardedRuns

variable {σ α : Type*}

/-- The state a run ends in, `none` when one of its actions was not enabled. -/
def run (step : σ → α → Option σ) : σ → List α → Option σ
  | s, [] => some s
  | s, a :: as => (step s a).bind fun s' => run step s' as

/-- `Q` holds in every state the run visits, its first state included. -/
def Always (step : σ → α → Option σ) (Q : σ → Prop) : σ → List α → Prop
  | s, [] => Q s
  | s, a :: as => Q s ∧ ∀ s', step s a = some s' → Always step Q s' as

/-- Every step the run takes meets `g` in the state before that step. -/
def Guarded (step : σ → α → Option σ) (g : σ → α → Prop) : σ → List α → Prop
  | _, [] => True
  | s, a :: as => ∀ s', step s a = some s' → g s a ∧ Guarded step g s' as

/-- Whether the steps of a run meet a condition can be tried out. -/
instance decidableGuarded (step : σ → α → Option σ) (g : σ → α → Prop)
    [∀ s a, Decidable (g s a)] : ∀ s as, Decidable (Guarded step g s as)
  | _, [] => isTrue trivial
  | s, a :: as =>
    match h : step s a with
    | none => isTrue fun t ht => nomatch h.symm.trans ht
    | some t =>
      have := decidableGuarded step g t as
      decidable_of_iff (g s a ∧ Guarded step g t as)
        ⟨fun hg u hu => Option.some.inj (h.symm.trans hu) ▸ hg, fun hg => hg t h⟩

variable {step : σ → α → Option σ} {Q R J : σ → Prop} {p g : σ → α → Prop}

theorem run_append (s : σ) (as bs : List α) :
    run step s (as ++ bs) = (run step s as).bind fun s' => run step s' bs := by
  induction as generalizing s with
  | nil => rfl
  | cons a as ih =>
    simp only [List.cons_append, run]
    cases step s a with
    | none => rfl
    | some t => exact ih t

variable {s s' : σ} {as bs : List α}

theorem always_first (h : Always step Q s as) : Q s := by
  cases as with
  | nil => exact h
  | cons a as => exact h.1

theorem always_last (h : Always step Q s as) (hr : run step s as = some s') : Q s' := by
  induction as generalizing s with
  | nil =>
    cases hr
    exact h
  | cons a as ih =>
    obtain ⟨t, ht, hr'⟩ := Option.bind_eq_some_iff.mp hr
    exact ih (h.2 t ht) hr'

theorem always_mono (hQR : ∀ s, Q s → R s) (h : Always step Q s as) : Always step R s as := by
  induction as generalizing s with
  | nil => exact hQR s h
  | cons a as ih => exact ⟨hQR s h.1, fun t ht => ih (h.2 t ht)⟩

theorem always_of_invariant (hstep : ∀ s a s', Q s → step s a = some s' → Q s')
    (as : List α) (h : Q s) : Always step Q s as := by
  induction as generalizing s with
  | nil => exact h
  | cons a as ih => exact ⟨h, fun t ht => ih (hstep s a t h ht)⟩

theorem run_invariant (hstep : ∀ s a s', Q s → step s a = some s' → Q s')
    (h : Q s) (hr : run step s as = some s') : Q s' :=
  always_last (always_of_invariant hstep as h) hr

theorem always_of_guarded (hstep : ∀ s a s', Q s → g s a → step s a = some s' → Q s')
    (h : Q s) (hg : Guarded step g s as) : Always step Q s as := by
  induction as generalizing s with
  | nil => exact h
  | cons a as ih =>
    refine ⟨h, fun t ht => ?_⟩
    obtain ⟨hga, hgas⟩ := hg t ht
    exact ih (hstep s a t h hga ht) hgas

theorem guarded_true (s : σ) (as : List α) : Guarded step (fun _ _ => True) s as := by
  induction as generalizing s with
  | nil => trivial
  | cons a as ih => exact fun t _ => ⟨trivial, ih t⟩

theorem guarded_mono (hpg : ∀ s, ∀ a ∈ as, p s a → g s a)
    (h : Guarded step p s as) : Guarded step g s as := by
  induction as generalizing s with
  | nil => trivial
  | cons a as ih =>
    intro t ht
    refine ⟨hpg s a List.mem_cons_self (h t ht).1, ih (fun s b hb => ?_) (h t ht).2⟩
    exact hpg s b (List.mem_cons_of_mem a hb)

theorem guarded_and (hp : Guarded step p s as)
    (hg : Guarded step g s as) : Guarded step (fun s a => p s a ∧ g s a) s as := by
  induction as generalizing s with
  | nil => trivial
  | cons a as ih =>
    intro t ht
    exact ⟨⟨(hp t ht).1, (hg t ht).1⟩, ih (hp t ht).2 (hg t ht).2⟩

theorem guarded_append (hr : run step s as = some s')
    (has : Guarded step g s as) (hbs : Guarded step g s' bs) : Guarded step g s (as ++ bs) := by
  induction as generalizing s with
  | nil =>
    cases hr
    exact hbs
  | cons a as ih =>
    obtain ⟨t, ht, hr'⟩ := Option.bind_eq_some_iff.mp hr
    intro u hu
    rw [ht] at hu
    cases hu
    exact ⟨(has t ht).1, ih hr' (has t ht).2⟩

theorem guarded_of_append (hr : run step s as = some s')
    (h : Guarded step g s (as ++ bs)) : Guarded step g s' bs := by
  induction as generalizing s with
  | nil =>
    cases hr
    exact h
  | cons a as ih =>
    obtain ⟨t, ht, hr'⟩ := Option.bind_eq_some_iff.mp hr
    exact ih hr' (h t ht).2

theorem guarded_steps {P : σ → α → σ → Prop}
    (hstep : ∀ s a s', J s → p s a → step s a = some s' → J s' ∧ P s a s')
    (hj : J s) (hp : Guarded step p s as) :
    Guarded step (fun s a => ∀ s', step s a = some s' → P s a s') s as := by
  induction as generalizing s with
  | nil => trivial
  | cons a as ih =>
    intro t ht
    obtain ⟨hpa, hpas⟩ := hp t ht
    obtain ⟨hJt, -⟩ := hstep s a t hj hpa ht
    exact ⟨fun s' hs' => (hstep s a s' hj hpa hs').2, ih hJt hpas⟩

/-- Among the runs whose steps meet `p`, where `g` says exactly which steps do what `P` asks: each
step of a run does so if and only if each meets `g`. The invariant `J` may rely on `g`. -/
theorem guarded_iff_guarded_among {P : σ → α → Prop}
    (hJ : ∀ s a s', J s → p s a → g s a → step s a = some s' → J s')
    (hstep : ∀ s a s', J s → p s a → step s a = some s' → (P s a ↔ g s a))
    (hp : Guarded step p s as) (hj : J s) :
    Guarded step P s as ↔ Guarded step g s as := by
  induction as generalizing s with
  | nil => exact Iff.rfl
  | cons a as ih =>
    constructor
    · intro h t ht
      obtain ⟨hpa, hpas⟩ := hp t ht
      have hga : g s a := (hstep s a t hj hpa ht).mp (h t ht).1
      exact ⟨hga, (ih hpas (hJ s a t hj hpa hga ht)).mp (h t ht).2⟩
    · intro h t ht
      obtain ⟨hpa, hpas⟩ := hp t ht
      obtain ⟨hga, hgas⟩ := h t ht
      exact ⟨(hstep s a t hj hpa ht).mpr hga, (ih hpas (hJ s a t hj hpa hga ht)).mpr hgas⟩

theorem exists_step_of_lost (hs : Q s) (hr : run step s as = some s') (hn : ¬ Q s') :
    ∃ pre a post t t', as = pre ++ a :: post ∧ run step s pre = some t ∧ step t a = some t' ∧
      Q t ∧ ¬ Q t' := by
  induction as generalizing s with
  | nil =>
    cases hr
    exact absurd hs hn
  | cons a as ih =>
    obtain ⟨t, ht, hr'⟩ := Option.bind_eq_some_iff.mp hr
    by_cases hQt : Q t
    · obtain ⟨pre, b, post, u, u', heq, hpre, hstep, hu, hu'⟩ := ih hQt hr'
      refine ⟨a :: pre, b, post, u, u', ?_, ?_, hstep, hu, hu'⟩
      · rw [heq, List.cons_append]
      · rw [run, ht, Option.bind_some, hpre]
    · exact ⟨[], a, as, s, t, rfl, rfl, ht, hs, hQt⟩

/-- Among the runs whose steps meet `p`, where `g` says exactly which steps keep `Q`: a run
stays in `Q` if and only if each of its steps meets `g`. The side invariant `J` may rely on
`Q`, which both directions have. -/
theorem always_iff_guarded_among
    (hJ : ∀ s a s', J s → p s a → Q s → Q s' → step s a = some s' → J s')
    (hstep : ∀ s a s', J s → p s a → Q s → step s a = some s' → (Q s' ↔ g s a))
    (hp : Guarded step p s as) (hj : J s) (hq : Q s) :
    Always step Q s as ↔ Guarded step g s as := by
  induction as generalizing s with
  | nil => exact ⟨fun _ => trivial, fun _ => hq⟩
  | cons a as ih =>
    constructor
    · intro h t ht
      obtain ⟨hpa, hpas⟩ := hp t ht
      have hQt : Q t := always_first (h.2 t ht)
      have hJt : J t := hJ s a t hj hpa hq hQt ht
      exact ⟨(hstep s a t hj hpa hq ht).mp hQt, (ih hpas hJt hQt).mp (h.2 t ht)⟩
    · intro hg
      refine ⟨hq, fun t ht => ?_⟩
      obtain ⟨hpa, hpas⟩ := hp t ht
      obtain ⟨hga, hgas⟩ := hg t ht
      have hQt : Q t := (hstep s a t hj hpa hq ht).mpr hga
      exact (ih hpas (hJ s a t hj hpa hq hQt ht) hQt).mpr hgas

theorem always_iff_guarded (hJ : ∀ s a s', J s → Q s → Q s' → step s a = some s' → J s')
    (hstep : ∀ s a s', J s → Q s → step s a = some s' → (Q s' ↔ g s a))
    (hj : J s) (hq : Q s) :
    Always step Q s as ↔ Guarded step g s as :=
  always_iff_guarded_among (fun s a s' hj _ => hJ s a s' hj)
    (fun s a s' hj _ => hstep s a s' hj) (guarded_true s as) hj hq

end GuardedRuns

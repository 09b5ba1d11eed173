import Mathlib.Data.List.Basic

/-! A waiting queue with its books: what arrived, what was taken from the front to be served
and what was removed without being served. -/
namespace ServiceQueues

variable {α : Type*}

structure ServiceQueue (α : Type*) where
  arrived : List α
  waiting : List α
  taken : List α
  removed : List α

/-- An arrival at the back, a service from the front, the removal of all that waits. -/
inductive Step : ServiceQueue α → ServiceQueue α → Prop where
  | arrive (q : ServiceQueue α) (a : α) :
    Step q { q with arrived := q.arrived ++ [a], waiting := q.waiting ++ [a] }
  | take (q : ServiceQueue α) (a : α) (rest : List α) (h : q.waiting = a :: rest) :
    Step q { q with waiting := rest, taken := q.taken ++ [a] }
  | drain (q : ServiceQueue α) :
    Step q { q with waiting := [], removed := q.removed ++ q.waiting }

/-- Nothing is lost and nothing counted twice; the services follow the arrivals in order, and
what waits comes after what was served. -/
structure Accounted (q : ServiceQueue α) : Prop where
  perm : (q.taken ++ q.removed ++ q.waiting).Perm q.arrived
  order : (q.taken ++ q.waiting).Sublist q.arrived

theorem accounted_empty : Accounted (⟨[], [], [], []⟩ : ServiceQueue α) :=
  ⟨List.Perm.refl _, List.Sublist.refl _⟩

variable {q : ServiceQueue α}

theorem Accounted.step {q' : ServiceQueue α} (h : Accounted q) (hstep : Step q q') :
    Accounted q' := by
  cases hstep with
  | arrive a =>
    constructor
    · simp only [← List.append_assoc]
      exact h.perm.append_right [a]
    · simp only [← List.append_assoc]
      exact h.order.append_right [a]
  | take a rest hfront =>
    constructor
    · refine List.Perm.trans ?_ h.perm
      rw [hfront]
      simp only [List.append_assoc]
      refine List.Perm.append_left q.taken ?_
      rw [List.singleton_append]
      exact List.perm_middle.symm
    · have horder := h.order
      rw [hfront] at horder
      simpa using horder
  | drain =>
    constructor
    · have hperm := h.perm
      rw [List.append_assoc] at hperm
      simpa using hperm
    · rw [List.append_nil]
      exact (List.sublist_append_left q.taken q.waiting).trans h.order

theorem Accounted.taken_sublist (h : Accounted q) :
    q.taken.Sublist q.arrived :=
  (List.sublist_append_left q.taken q.waiting).trans h.order

theorem Accounted.taken_disjoint (h : Accounted q)
    (hnodup : q.arrived.Nodup) {a : α} (ha : a ∈ q.taken) : a ∉ q.waiting := by
  have hdistinct : (q.taken ++ q.waiting).Nodup := h.order.nodup hnodup
  exact fun hwaiting => (List.nodup_append.mp hdistinct).2.2 a ha a hwaiting rfl

end ServiceQueues

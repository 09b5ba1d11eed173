import Mathlib.Data.List.Sort
import Mathlib.Data.List.Nodup
import Mathlib.Data.List.Perm.Basic

/-! Reading a collection in the order of a key. When the keys are distinct the reading is
determined by the elements alone, so it can be computed without running the sort. -/
namespace KeyOrder

variable {α κ : Type*} [LinearOrder κ]

def sortBy (key : α → κ) (l : List α) : List α :=
  l.insertionSort fun a b => key a ≤ key b

theorem sortBy_perm (key : α → κ) (l : List α) : (sortBy key l).Perm l :=
  List.perm_insertionSort _ l

variable {key : α → κ} {l : List α}

theorem mem_sortBy {x : α} : x ∈ sortBy key l ↔ x ∈ l :=
  List.mem_insertionSort _

theorem sortBy_of_pairwise (h : l.Pairwise fun a b => key a < key b) : sortBy key l = l :=
  (h.imp fun hab => le_of_lt hab).insertionSort_eq

theorem sortBy_rises (key : α → κ) (l : List α) :
    (sortBy key l).Pairwise fun a b => key a ≤ key b := by
  exact List.pairwise_insertionSort _ l

section

variable {key : α → κ}

variable {l : List α}

theorem sortBy_strict (h : (l.map key).Nodup) :
    (sortBy key l).Pairwise fun a b => key a < key b := by
  have hle := sortBy_rises key l
  have hne : (sortBy key l).Pairwise fun a b => key a ≠ key b := by
    have hn : ((sortBy key l).map key).Nodup := ((sortBy_perm key l).map key).nodup_iff.mpr h
    exact List.pairwise_map.mp hn
  exact (hle.and hne).imp fun hab => lt_of_le_of_ne hab.1 hab.2

theorem sortBy_eq_of_perm {l' : List α} (hp : l.Perm l')
    (hs : l'.Pairwise fun a b => key a < key b) : sortBy key l = l' := by
  have hn : (l.map key).Nodup :=
    (hp.map key).nodup_iff.mpr (List.pairwise_map.mpr (hs.imp fun hab => ne_of_lt hab))
  refine ((sortBy_perm key l).trans hp).eq_of_pairwise ?_ (sortBy_strict hn) hs
  intro a b _ _ hab hba
  exact absurd hab (lt_asymm hba)

theorem sortBy_append_of_lt {new : List α} (hl : (l.map key).Nodup)
    (hnew : new.Pairwise fun a b => key a < key b)
    (hlt : ∀ a ∈ l, ∀ b ∈ new, key a < key b) :
    sortBy key (l ++ new) = sortBy key l ++ new := by
  apply sortBy_eq_of_perm
  · exact (sortBy_perm key l).symm.append_right new
  · refine List.pairwise_append.mpr ⟨sortBy_strict hl, hnew, fun a ha b hb => ?_⟩
    exact hlt a (mem_sortBy.mp ha) b hb

theorem filter_orderedInsert {p : α → Bool} (a : α) (h : l.Pairwise fun a b => key a ≤ key b) :
    (l.orderedInsert (fun a b => key a ≤ key b) a).filter p =
      if p a then (l.filter p).orderedInsert (fun a b => key a ≤ key b) a else l.filter p := by
  induction l with
  | nil => by_cases ha : p a <;> simp [ha]
  | cons b l ih =>
    obtain ⟨hb, hl⟩ := List.pairwise_cons.mp h
    by_cases hle : key a ≤ key b
    · rw [List.orderedInsert_cons_of_le (r := fun a b : α => key a ≤ key b) _ hle,
        List.filter_cons]
      split_ifs
      · -- every element of the list is at least as large
        have hall : ∀ c ∈ (b :: l).filter p, key a ≤ key c := by
          intro c hc
          rcases List.mem_cons.mp (List.mem_filter.mp hc).1 with rfl | hc
          · exact hle
          · exact hle.trans (hb c hc)
        cases hf : (b :: l).filter p with
        | nil => rfl
        | cons c rest =>
          have hc := hall c (by rw [hf]; exact List.mem_cons_self)
          exact (List.orderedInsert_cons_of_le (r := fun a b : α => key a ≤ key b) _ hc).symm
      · rfl
    · rw [List.orderedInsert_of_not_le (r := fun a b : α => key a ≤ key b) _ hle,
        List.filter_cons, ih hl]
      by_cases hpb : p b
      · by_cases hpa : p a
        · simp only [hpb, hpa, if_true, List.filter_cons_of_pos]
          rw [List.orderedInsert_of_not_le (r := fun a b : α => key a ≤ key b) _ hle]
        · simp [hpb, hpa]
      · simp [hpb]

theorem filter_sortBy (p : α → Bool) (l : List α) :
    (sortBy key l).filter p = sortBy key (l.filter p) := by
  induction l with
  | nil => rfl
  | cons a l ih =>
    have hsorted := sortBy_rises key l
    change ((sortBy key l).orderedInsert _ a).filter p = _
    rw [filter_orderedInsert a hsorted, ih, List.filter_cons]
    split_ifs
    · rfl
    · rfl

end

end KeyOrder

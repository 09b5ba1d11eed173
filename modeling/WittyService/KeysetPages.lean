import Mathlib.Data.List.Perm.Subperm
import WittyService.KeyOrder

/-! Reading a collection page by page, newest keys first, where the smallest key of a page is
the bound below which the next page reads. -/
namespace KeysetPages

variable {α κ : Type*} [LinearOrder κ] (key : α → κ) (limit : ℕ)

/-- A reading of the rows by falling keys. Rows with one key stand in any order. -/
structure Falling (rows found : List α) : Prop where
  perm : found.Perm rows
  falls : found.Pairwise fun a b => key b ≤ key a

/-- The pages of a collection, the newest first and each rising in itself. -/
inductive Paged : List α → List (List α) → Prop where
  | done : Paged [] []
  | page {rows found : List α} {last : α} {pages : List (List α)} :
      Falling key rows found → (found.take limit).getLast? = some last →
      Paged (rows.filter fun row => key row < key last) pages →
      Paged rows ((found.take limit).reverse :: pages)

def joined (pages : List (List α)) : List α := pages.reverse.flatten

def fallingKeys (rows : List α) : List κ := ((KeyOrder.sortBy key rows).reverse).map key

/-- No page ends within a group of rows that share their key. -/
def Untied (rows : List α) : Prop :=
  ∀ k, 1 ≤ k → ∀ a ∈ (fallingKeys key rows)[k * limit - 1]?,
    ∀ b ∈ (fallingKeys key rows)[k * limit]?, b < a

variable {key limit}

theorem falling_sortBy (rows : List α) : Falling key rows (KeyOrder.sortBy key rows).reverse := by
  constructor
  · exact (List.reverse_perm _).trans (KeyOrder.sortBy_perm key rows)
  · rw [List.pairwise_reverse]
    exact KeyOrder.sortBy_rises key rows

variable {rows found : List α}

theorem Falling.keys (h : Falling key rows found) :
    found.map key = fallingKeys key rows := by
  have hsorted : Falling key rows (KeyOrder.sortBy key rows).reverse := falling_sortBy rows
  have hfound : (found.map key).Pairwise fun a b => b ≤ a := List.pairwise_map.mpr h.falls
  apply List.Perm.eq_of_pairwise _ hfound
  · exact List.pairwise_map.mpr hsorted.falls
  · exact (h.perm.trans hsorted.perm.symm).map key
  · intro a b _ _ hab hba
    exact le_antisymm hba hab

section Page

variable {rows found : List α} {last : α}

theorem Falling.split (h : Falling key rows found) (n : ℕ) :
    (∀ row ∈ found.take n, ∀ next ∈ found.drop n, key next ≤ key row) ∧
      (found.drop n).Pairwise fun a b => key b ≤ key a := by
  have hfalls := h.falls
  rw [← List.take_append_drop n found, List.pairwise_append] at hfalls
  exact ⟨hfalls.2.2, hfalls.2.1⟩

section

variable (h : Falling key rows found) (hlast : (found.take limit).getLast? = some last)
include h hlast

theorem Falling.last_le :
    ∀ row ∈ found.take limit, key last ≤ key row := by
  intro row hrow
  obtain ⟨init, hinit⟩ := List.getLast?_eq_some_iff.mp hlast
  have hfalls := h.falls.sublist (List.take_sublist limit found)
  rw [hinit, List.pairwise_append] at hfalls
  rw [hinit, List.mem_append, List.mem_singleton] at hrow
  rcases hrow with hrow | rfl
  · exact hfalls.2.2 row hrow last (List.mem_singleton_self _)
  · exact le_refl _

theorem Falling.rest :
    Falling key (rows.filter fun row => key row < key last)
      ((found.drop limit).filter fun row => key row < key last) := by
  have htaken : (found.take limit).filter (fun row => key row < key last) = [] := by
    rw [List.filter_eq_nil_iff]
    intro row hrow
    simpa using h.last_le hlast row hrow
  have hfound : found.filter (fun row => key row < key last) =
      (found.drop limit).filter fun row => key row < key last := by
    conv_lhs => rw [← List.take_append_drop limit found, List.filter_append, htaken]
    rfl
  constructor
  · rw [← hfound]
    exact h.perm.filter _
  · exact (h.split limit).2.sublist (List.filter_sublist)

end

end Page

theorem joined_cons (page : List α) (pages : List (List α)) :
    joined (page :: pages) = joined pages ++ page := by
  simp [joined]

section

variable {rows : List α} {pages : List (List α)} (h : Paged key limit rows pages)
include h

theorem Paged.subperm :
    (joined pages).Subperm rows := by
  induction h with
  | done => exact List.Subperm.refl _
  | @page rows found last pages hfalling hlast _ ih =>
    rw [joined_cons]
    have hrest := ih.trans (hfalling.rest hlast).perm.symm.subperm
    have hdrop : (joined pages).Subperm (found.drop limit) :=
      hrest.trans List.filter_sublist.subperm
    have hall : (joined pages ++ (found.take limit).reverse).Subperm
        (found.drop limit ++ found.take limit) :=
      List.Subperm.append hdrop (List.reverse_perm _).subperm
    refine hall.trans (List.Perm.subperm ?_)
    exact (List.perm_append_comm.trans
      (List.Perm.of_eq (List.take_append_drop limit found))).trans hfalling.perm

theorem Paged.rises :
    (joined pages).Pairwise fun a b => key a ≤ key b := by
  induction h with
  | done => exact List.Pairwise.nil
  | @page rows found last pages hfalling hlast hpages ih =>
    rw [joined_cons, List.pairwise_append]
    refine ⟨ih, ?_, ?_⟩
    · rw [List.pairwise_reverse]
      exact hfalling.falls.sublist (List.take_sublist _ _)
    · intro a ha b hb
      have hbelow := (List.mem_filter.mp (hpages.subperm.subset ha)).2
      have hle := hfalling.last_le hlast b (List.mem_reverse.mp hb)
      simp only [decide_eq_true_eq] at hbelow
      exact hbelow.le.trans hle

end

theorem limit_pos {last : α} (hlast : (found.take limit).getLast? = some last) : 1 ≤ limit := by
  rcases Nat.eq_zero_or_pos limit with rfl | hpos
  · simp at hlast
  · exact hpos

/-- The first bound falls within no group of rows with one key. -/
def Cut (limit : ℕ) (keys : List κ) : Prop :=
  ∀ a ∈ keys[limit - 1]?, ∀ b ∈ keys[limit]?, b < a

section

variable {rows found : List α} {last : α} (h : Falling key rows found)
  (hlast : (found.take limit).getLast? = some last)
include h hlast

theorem Falling.cut_iff :
    Cut limit (found.map key) ↔
      (found.drop limit).filter (fun row => key row < key last) = found.drop limit := by
  have hpos := limit_pos hlast
  have hsplit := h.split limit
  rw [List.filter_eq_self]
  cases hdrop : found.drop limit with
  | nil =>
    have hshort : (found.map key)[limit]? = none := by
      rw [List.getElem?_eq_none_iff, List.length_map]
      exact List.drop_eq_nil_iff.mp hdrop
    simp [Cut, hshort]
  | cons next rest =>
    have hlength : limit < found.length := by
      by_contra hle
      rw [List.drop_eq_nil_of_le (Nat.not_lt.mp hle)] at hdrop
      cases hdrop
    have hnext : found[limit]? = some next := by
      rw [← List.head?_drop, hdrop]
      rfl
    have hprev : found[limit - 1]? = some last := by
      rw [← hlast, List.getLast?_eq_getElem?, List.length_take, Nat.min_eq_left hlength.le,
        List.getElem?_take_of_lt (by omega)]
    have hcut : Cut limit (found.map key) ↔ key next < key last := by
      simp [Cut, hnext, hprev]
    rw [hcut]
    rw [hdrop] at hsplit
    obtain ⟨hbelow, -⟩ := List.pairwise_cons.mp hsplit.2
    constructor
    · intro hlt row hrow
      rw [decide_eq_true_eq]
      rcases List.mem_cons.mp hrow with rfl | hrow
      · exact hlt
      · exact (hbelow row hrow).trans_lt hlt
    · intro hall
      simpa using hall next List.mem_cons_self

theorem untied_iff :
    Untied key limit rows ↔ Cut limit (found.map key) ∧
      Untied key limit (rows.filter fun row => key row < key last) := by
  have hkeys := h.keys
  have hcut := h.cut_iff hlast
  have hrest := (h.rest hlast).keys
  unfold Untied
  rw [← hkeys, ← hrest]
  have hshift : Cut limit (found.map key) → ∀ i,
      (((found.drop limit).filter fun row => key row < key last).map key)[i]? =
        (found.map key)[limit + i]? := by
    intro hfirst i
    rw [hcut.mp hfirst, List.map_drop, List.getElem?_drop]
  constructor
  · intro hall
    have hfirst : Cut limit (found.map key) := by
      simpa [Cut] using hall 1 (le_refl 1)
    refine ⟨hfirst, ?_⟩
    intro k hk a ha b hb
    have hk' : limit ≤ k * limit := Nat.le_mul_of_pos_left limit hk
    rw [hshift hfirst] at ha hb
    apply hall (k + 1) (by omega) a _ b _
    · rwa [Nat.succ_mul, show k * limit + limit - 1 = limit + (k * limit - 1) by omega]
    · rwa [Nat.succ_mul, Nat.add_comm]
  · rintro ⟨hfirst, hall⟩ k hk a ha b hb
    rcases Nat.eq_or_lt_of_le hk with rfl | hlt
    · rw [Nat.one_mul] at ha hb
      exact hfirst a ha b hb
    · obtain ⟨j, rfl⟩ := Nat.exists_eq_add_of_lt hlt
      have hj : limit ≤ (j + 1) * limit := Nat.le_mul_of_pos_left limit (Nat.succ_pos j)
      have hmul : (1 + j + 1) * limit = (j + 1) * limit + limit := by
        rw [Nat.add_comm 1 j, Nat.succ_mul]
      apply hall (j + 1) (Nat.succ_pos j) a _ b _
      · rwa [hshift hfirst, show limit + ((j + 1) * limit - 1) = (1 + j + 1) * limit - 1 by omega]
      · rwa [hshift hfirst, Nat.add_comm limit, ← hmul]

end

theorem Paged.perm_iff {pages : List (List α)} (h : Paged key limit rows pages) :
    (joined pages).Perm rows ↔ Untied key limit rows := by
  induction h with
  | done => simp [joined, Untied, fallingKeys, KeyOrder.sortBy]
  | @page rows found last pages hfalling hlast hpages ih =>
    have hrest := hfalling.rest hlast
    have hwhole : (found.take limit).length + (found.drop limit).length = rows.length := by
      rw [← List.length_append, List.take_append_drop]
      exact hfalling.perm.length_eq
    have hlength := hpages.subperm.length_le
    rw [untied_iff hfalling hlast, ← ih, joined_cons]
    constructor
    · intro hperm
      have hcount := hperm.length_eq
      rw [List.length_append, List.length_reverse] at hcount
      have hkept := hrest.perm.length_eq
      have hfilter := List.length_filter_le (fun row => decide (key row < key last))
        (found.drop limit)
      constructor
      · rw [hfalling.cut_iff hlast]
        exact List.filter_sublist.eq_of_length_le (by omega)
      · exact hpages.subperm.perm_of_length_le (by omega)
    · rintro ⟨hcut, hperm⟩
      rw [hfalling.cut_iff hlast] at hcut
      have hrows : (joined pages).Perm (found.drop limit) := by
        rw [← hcut]
        exact hperm.trans hrest.perm.symm
      have hall := hrows.append (List.reverse_perm (found.take limit))
      refine (hall.trans List.perm_append_comm).trans ?_
      rw [List.take_append_drop]
      exact hfalling.perm

end KeysetPages

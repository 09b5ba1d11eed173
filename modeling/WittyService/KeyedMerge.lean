import Mathlib.Data.List.Nodup

/-! Rows named by a key, and updates merged into them by that key. A row keeps its place and its
key. `Edits` says that a list was changed at one place alone. -/
namespace KeyedMerge

variable {α κ : Type*} {key : α → κ}

/-- The rows kept their keys, and only the one at `i` may have changed. -/
structure Edits (key : α → κ) (i : ℕ) (rows rows' : List α) : Prop where
  keys : rows'.map key = rows.map key
  others : ∀ j, j ≠ i → rows'[j]? = rows[j]?

namespace Edits

variable {i : ℕ} {rows rows' rows'' : List α}

theorem refl (rows : List α) : Edits key i rows rows := ⟨rfl, fun _ _ => rfl⟩

theorem trans (h : Edits key i rows rows') (h' : Edits key i rows' rows'') :
    Edits key i rows rows'' :=
  ⟨h'.keys.trans h.keys, fun j hj => (h'.others j hj).trans (h.others j hj)⟩

theorem length_eq (h : Edits key i rows rows') : rows'.length = rows.length := by
  have hlen := congrArg List.length h.keys
  simpa only [List.length_map] using hlen

theorem nodup (h : Edits key i rows rows') (hn : (rows.map key).Nodup) :
    (rows'.map key).Nodup := h.keys ▸ hn

theorem of_row {row row' : α}
    (hothers : ∀ j, j ≠ i → rows'[j]? = rows[j]?) (hrow : rows[i]? = some row)
    (hrow' : rows'[i]? = some row') (hkey : key row' = key row) : Edits key i rows rows' := by
  refine ⟨?_, hothers⟩
  apply List.ext_getElem?
  intro j
  rw [List.getElem?_map, List.getElem?_map]
  by_cases hj : j = i
  · rw [hj, hrow, hrow', Option.map_some, Option.map_some, hkey]
  · rw [hothers j hj]

theorem comp {κ' : Type*} (f : κ → κ') (h : Edits key i rows rows') :
    Edits (fun row => f (key row)) i rows rows' := by
  refine ⟨?_, h.others⟩
  have hmap := congrArg (List.map f) h.keys
  rw [List.map_map, List.map_map] at hmap
  exact hmap

theorem take_eq (h : Edits key i rows rows') : rows'.take i = rows.take i := by
  apply List.ext_getElem?
  intro j
  by_cases hj : j < i
  · rw [List.getElem?_take_of_lt hj, List.getElem?_take_of_lt hj, h.others j (by omega)]
  · rw [List.getElem?_eq_none (by simp only [List.length_take]; omega),
      List.getElem?_eq_none (by simp only [List.length_take]; omega)]

theorem row_at (h : Edits key i rows rows') {row : α} (hrow : rows[i]? = some row) :
    ∃ row', rows'[i]? = some row' ∧ key row' = key row := by
  have hkey : (rows'.map key)[i]? = (rows.map key)[i]? := by rw [h.keys]
  rw [List.getElem?_map, List.getElem?_map, hrow, Option.map_some,
    Option.map_eq_some_iff] at hkey
  exact hkey

end Edits

variable [DecidableEq κ]

def latest (key : α → κ) (updates : List α) (k : κ) : Option α :=
  updates.reverse.find? fun update => key update = k

def merge (key : α → κ) (rows updates : List α) : List α :=
  rows.map fun row => (latest key updates (key row)).getD row

variable {rows updates : List α} {row update : α} {k : κ} {i : ℕ}

theorem mem_of_latest (h : latest key updates k = some update) :
    update ∈ updates ∧ key update = k := by
  have hmem := List.mem_of_find?_eq_some h
  have hkey := List.find?_some h
  exact ⟨List.mem_reverse.mp hmem, of_decide_eq_true hkey⟩

theorem latest_eq_none (h : ∀ update ∈ updates, key update ≠ k) :
    latest key updates k = none := by
  refine List.find?_eq_none.mpr fun update hupdate => ?_
  rw [decide_eq_true_eq]
  exact h update (List.mem_reverse.mp hupdate)

theorem exists_latest (h : update ∈ updates) :
    ∃ last, latest key updates (key update) = some last := by
  refine Option.isSome_iff_exists.mp (List.find?_isSome.mpr ⟨update, ?_, ?_⟩)
  · exact List.mem_reverse.mpr h
  · exact decide_eq_true rfl

@[simp] theorem latest_nil (k : κ) : latest key [] k = none := rfl

@[simp] theorem latest_singleton (update : α) :
    latest key [update] (key update) = some update := by
  simp [latest]

theorem latest_filter (key : α → κ) (updates : List α) (k : κ) :
    latest key (updates.filter fun update => key update = k) k = latest key updates k := by
  rw [latest, ← List.filter_reverse, List.find?_filter, latest]
  congr 1
  funext update
  simp

theorem latest_map {f : α → α} (hf : ∀ update, key (f update) = key update) (updates : List α)
    (k : κ) : latest key (updates.map f) k = (latest key updates k).map f := by
  rw [latest, ← List.map_reverse, List.find?_map, latest]
  congr 2
  funext update
  exact decide_eq_decide.mpr (by rw [hf update])

@[simp] theorem length_merge (key : α → κ) (rows updates : List α) :
    (merge key rows updates).length = rows.length := List.length_map _

theorem key_getD_latest (row : α) :
    key ((latest key updates (key row)).getD row) = key row := by
  cases h : latest key updates (key row) with
  | none => rfl
  | some update => exact (mem_of_latest h).2

@[simp] theorem map_key_merge (key : α → κ) (rows updates : List α) :
    (merge key rows updates).map key = rows.map key := by
  rw [merge, List.map_map]
  exact List.map_congr_left fun row _ => key_getD_latest row

theorem getElem?_merge (hrow : rows[i]? = some row) :
    (merge key rows updates)[i]? = some ((latest key updates (key row)).getD row) := by
  rw [merge, List.getElem?_map, hrow, Option.map_some]

theorem getElem?_merge_latest (hrow : rows[i]? = some row)
    (h : latest key updates (key row) = some update) :
    (merge key rows updates)[i]? = some update := by
  rw [getElem?_merge hrow, h, Option.getD_some]

theorem edits_merge (hn : (rows.map key).Nodup) (hrow : rows[i]? = some row)
    (h : ∀ update ∈ updates, key update = key row) :
    Edits key i rows (merge key rows updates) := by
  refine ⟨map_key_merge key rows updates, fun j hj => ?_⟩
  cases hother : rows[j]? with
  | none => rw [merge, List.getElem?_map, hother, Option.map_none]
  | some other =>
    have hne : key other ≠ key row := by
      intro heq
      have hkeys : (rows.map key)[j]? = (rows.map key)[i]? := by
        rw [List.getElem?_map, List.getElem?_map, hother, hrow, Option.map_some,
          Option.map_some, heq]
      have hlt : j < (rows.map key).length := by
        rw [List.length_map]
        exact (List.getElem?_eq_some_iff.mp hother).1
      exact hj ((List.getElem?_inj hlt hn).mp hkeys)
    have hnone : latest key updates (key other) = none :=
      latest_eq_none fun update hupdate heq => hne (heq.symm.trans (h update hupdate))
    rw [getElem?_merge hother, hnone, Option.getD_none]

/-- `rows'` is `rows` with `update` in the place `i`. -/
structure Puts (i : ℕ) (update : α) (rows rows' : List α) : Prop where
  length_eq : rows'.length = rows.length
  row : rows'[i]? = some update
  others : ∀ j, j ≠ i → rows'[j]? = rows[j]?

/-- The row at any place but `i` that bears the key `k` is `update` already. -/
def OnlyAt (key : α → κ) (rows : List α) (i : ℕ) (k : κ) (update : α) : Prop :=
  ∀ j other, j ≠ i → rows[j]? = some other → key other = k → other = update

theorem puts_merge_iff (hrow : rows[i]? = some row) :
    Puts i update rows (merge key rows updates) ↔
      (latest key updates (key row)).getD row = update ∧
        ∀ j other, j ≠ i → rows[j]? = some other →
          ∀ last ∈ latest key updates (key other), other = last := by
  constructor
  · intro h
    refine ⟨Option.some.inj ((getElem?_merge hrow).symm.trans h.row), ?_⟩
    intro j other hj hother last hlast
    have hmerged := getElem?_merge_latest hother hlast
    rw [h.others j hj, hother] at hmerged
    exact Option.some.inj hmerged
  · rintro ⟨hat, hothers⟩
    refine ⟨length_merge key rows updates, ?_, fun j hj => ?_⟩
    · rw [getElem?_merge hrow, hat]
    · cases hother : rows[j]? with
      | none => rw [merge, List.getElem?_map, hother, Option.map_none]
      | some other =>
        rw [getElem?_merge hother]
        cases hlast : latest key updates (key other) with
        | none => rfl
        | some last => rw [Option.getD_some, hothers j other hj hother last hlast]

theorem latest_singleton_eq (update : α) (k : κ) :
    latest key [update] k = if key update = k then some update else none := by
  split
  · next h => rw [← h, latest_singleton]
  · next h =>
    apply latest_eq_none
    intro other hother
    rwa [List.mem_singleton.mp hother]

/-- One update takes the place of a row exactly when it has kept the key and no other row, unless
it is the update already, shares it. -/
theorem puts_merge_singleton_iff (hrow : rows[i]? = some row) :
    Puts i update rows (merge key rows [update]) ↔
      key update = key row ∧ OnlyAt key rows i (key update) update := by
  rw [puts_merge_iff hrow]
  simp only [latest_singleton_eq]
  refine and_congr ⟨fun h => ?_, fun h => ?_⟩ (forall_congr' fun j => forall_congr' fun other =>
    forall_congr' fun _ => forall_congr' fun _ => ?_)
  · by_contra hne
    rw [if_neg hne, Option.getD_none] at h
    exact hne (congrArg key h.symm)
  · rw [if_pos h, Option.getD_some]
  · simp only [Option.mem_ite_none_right, Option.mem_some_iff, eq_comm (a := key update)]
    exact ⟨fun h hkey => h update ⟨hkey, rfl⟩, fun h last hlast => hlast.2 ▸ h hlast.1⟩

theorem merge_eq_singleton (hne : updates ≠ []) (h : ∀ other ∈ updates, other = update) :
    merge key rows updates = merge key rows [update] := by
  refine List.map_congr_left fun row _ => ?_
  rw [latest_singleton_eq]
  split
  · next hkey =>
    obtain ⟨other, hother⟩ := List.exists_mem_of_ne_nil updates hne
    have hsome : ∃ last, latest key updates (key other) = some last := exists_latest hother
    rw [h other hother, hkey] at hsome
    obtain ⟨last, hlast⟩ := hsome
    rw [hlast, h last (mem_of_latest hlast).1]
  · next hkey =>
    rw [latest_eq_none fun other hother heq => hkey (h other hother ▸ heq)]

theorem getElem?_merge_singleton (rows : List α) (update : α) (j : ℕ) :
    (merge key rows [update])[j]? =
      rows[j]?.map fun row => if key update = key row then update else row := by
  rw [merge, List.getElem?_map]
  congr 1
  funext row
  rw [latest_singleton_eq]
  split <;> rfl

theorem getElem?_merge_merge (rows : List α) (first update : α) (j : ℕ) :
    (merge key (merge key rows [first]) [update])[j]? =
      rows[j]?.map fun row => if key update = key row then update
        else if key first = key row then first else row := by
  rw [getElem?_merge_singleton, getElem?_merge_singleton, Option.map_map]
  congr 1
  funext row
  rw [Function.comp_apply]
  by_cases h : key first = key row
  · rw [if_pos h, h]
  · rw [if_neg h]

/-- A row updated twice ends as the second update exactly when that one has its key and neither
update meets another row that differs from it. -/
theorem puts_merge_merge_iff {first : α} (hrow : rows[i]? = some row) :
    Puts i update rows (merge key (merge key rows [first]) [update]) ↔
      key update = key row ∧ OnlyAt key rows i (key row) update ∧
        (key first ≠ key row → OnlyAt key rows i (key first) first) := by
  constructor
  · intro h
    have hat := h.row
    rw [getElem?_merge_merge, hrow, Option.map_some, Option.some.injEq] at hat
    have hkey : key update = key row := by
      by_contra hne
      rw [if_neg hne] at hat
      split at hat
      · next hfirst => exact hne (hat ▸ hfirst)
      · exact hne (congrArg key hat.symm)
    have hothers : ∀ j other, j ≠ i → rows[j]? = some other →
        (if key update = key other then update else if key first = key other then first
          else other) = other := by
      intro j other hj hother
      have hmerged := h.others j hj
      rw [getElem?_merge_merge, hother, Option.map_some, Option.some.injEq] at hmerged
      exact hmerged
    refine ⟨hkey, fun j other hj hother hk => ?_, fun hne j other hj hother hk => ?_⟩
    · have heq := hothers j other hj hother
      rw [if_pos (hkey.trans hk.symm)] at heq
      exact heq.symm
    · have heq := hothers j other hj hother
      rw [if_neg fun heq => hne (hk.symm.trans (heq.symm.trans hkey)), if_pos hk.symm] at heq
      exact heq.symm
  · rintro ⟨hkey, hlast, hfirst⟩
    refine ⟨?_, ?_, fun j hj => ?_⟩
    · rw [length_merge, length_merge]
    · rw [getElem?_merge_merge, hrow, Option.map_some, if_pos hkey]
    · rw [getElem?_merge_merge]
      cases hother : rows[j]? with
      | none => rfl
      | some other =>
        rw [Option.map_some, Option.some.injEq]
        split
        · next hk => exact (hlast j other hj hother (hk.symm.trans hkey)).symm
        · next hk =>
          split
          · next hk' =>
            have hne : key first ≠ key row := fun heq => hk (hkey.trans (heq.symm.trans hk'))
            exact (hfirst hne j other hj hother hk'.symm).symm
          · rfl

end KeyedMerge

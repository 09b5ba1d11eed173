import Mathlib.Data.List.MinMax
import Mathlib.Data.List.Nodup

/-! A dictionary that keeps its keys in the order of their insertion. What an operation does is
said by what it leaves under each key. -/

structure OrderedDict (κ β : Type*) where
  entries : List (κ × β)
  nodupKeys : (entries.map Prod.fst).Nodup

namespace OrderedDict

variable {κ β : Type*} (d : OrderedDict κ β) {k k' : κ} {v : β}

def empty : OrderedDict κ β := ⟨[], .nil⟩

def size : Nat := d.entries.length

/-- The entries that meet `p` stay. -/
def keep (p : κ × β → Bool) : OrderedDict κ β :=
  ⟨d.entries.filter p, d.nodupKeys.sublist ((List.filter_sublist).map Prod.fst)⟩

theorem size_keep_le (p : κ × β → Bool) : (d.keep p).size ≤ d.size := List.length_filter_le ..

variable [DecidableEq κ]

def get? (k : κ) : Option β := d.entries.lookup k

def erase (k : κ) : OrderedDict κ β := d.keep fun entry => decide (entry.1 ≠ k)

def adjust (k : κ) (f : β → β) : OrderedDict κ β where
  entries := d.entries.map fun entry => if entry.1 = k then (entry.1, f entry.2) else entry
  nodupKeys := by
    have hkeys : (d.entries.map fun entry =>
        if entry.1 = k then (entry.1, f entry.2) else entry).map Prod.fst =
          d.entries.map Prod.fst := by
      rw [List.map_map]
      refine List.map_congr_left fun entry _ => ?_
      simp only [Function.comp_apply]
      split_ifs
      · rfl
      · rfl
    rw [hkeys]
    exact d.nodupKeys

def set (k : κ) (v : β) : OrderedDict κ β :=
  if h : k ∈ d.entries.map Prod.fst then d.adjust k fun _ => v
  else ⟨d.entries ++ [(k, v)], by
    rw [List.map_append]
    refine d.nodupKeys.append (List.nodup_singleton k) fun key hold hnew => ?_
    rw [List.mem_singleton.mp hnew] at hold
    exact h hold⟩

def update (d' : OrderedDict κ β) : OrderedDict κ β :=
  d'.entries.foldl (fun merged entry => merged.set entry.1 entry.2) d

/-- The key of the first entry whose value is least under `f`. -/
def leastKey? {γ : Type*} [LinearOrder γ] (f : β → γ) : Option κ :=
  (d.entries.argmin fun entry => f entry.2).map Prod.fst

variable {d}

theorem get?_eq_some_iff : d.get? k = some v ↔ (k, v) ∈ d.entries := by
  unfold get?
  rw [List.lookup_eq_some_iff]
  constructor
  · rintro ⟨before, after, heq, -⟩
    rw [heq]
    exact List.mem_append_right _ List.mem_cons_self
  · intro hmem
    obtain ⟨before, after, heq⟩ := List.append_of_mem hmem
    refine ⟨before, after, heq, fun entry hentry => ?_⟩
    have hnodup := d.nodupKeys
    rw [heq, List.map_append, List.nodup_append] at hnodup
    have hne : entry.1 ≠ k := hnodup.2.2 entry.1 (List.mem_map_of_mem hentry) k List.mem_cons_self
    exact bne_iff_ne.mpr hne.symm

theorem get?_isSome_iff : (d.get? k).isSome ↔ k ∈ d.entries.map Prod.fst := by
  rw [Option.isSome_iff_exists]
  simp [get?_eq_some_iff]

theorem get?_keep {p : κ × β → Bool} :
    (d.keep p).get? k = (d.get? k).filter fun v => p (k, v) := by
  ext v
  simp [get?_eq_some_iff, keep]

theorem get?_erase : (d.erase k).get? k' = if k' = k then none else d.get? k' := by
  rw [erase, get?_keep]
  by_cases h : k' = k
  · simp [h]
  · rw [if_neg h]
    cases d.get? k' with
    | none => rfl
    | some v => simp [h]

variable {f : β → β}

theorem get?_adjust : (d.adjust k f).get? k' = if k' = k then (d.get? k).map f else d.get? k' := by
  ext v
  rw [get?_eq_some_iff]
  simp only [adjust, List.mem_map, Prod.exists]
  constructor
  · rintro ⟨key, value, hmem, heq⟩
    have hget := get?_eq_some_iff.mpr hmem
    by_cases hkey : key = k
    · rw [if_pos hkey, Prod.mk.injEq] at heq
      obtain ⟨rfl, rfl⟩ := heq
      subst hkey
      simp [hget]
    · rw [if_neg hkey, Prod.mk.injEq] at heq
      obtain ⟨rfl, rfl⟩ := heq
      rw [if_neg hkey, hget]
  · intro hget
    by_cases hkey : k' = k
    · rw [if_pos hkey] at hget
      obtain ⟨value, hvalue, rfl⟩ := Option.map_eq_some_iff.mp hget
      exact ⟨k, value, get?_eq_some_iff.mp hvalue, by rw [if_pos rfl, hkey]⟩
    · rw [if_neg hkey] at hget
      exact ⟨k', v, get?_eq_some_iff.mp hget, if_neg hkey⟩

theorem of_get?_adjust (h : (d.adjust k f).get? k' = some v) :
    ∃ value, d.get? k' = some value ∧ v = if k' = k then f value else value := by
  rw [get?_adjust] at h
  split at h
  · next hkey =>
    obtain ⟨value, hvalue, rfl⟩ := Option.map_eq_some_iff.mp h
    exact ⟨value, hkey ▸ hvalue, (if_pos hkey).symm⟩
  · next hkey => exact ⟨v, h, (if_neg hkey).symm⟩

theorem get?_set : (d.set k v).get? k' = if k' = k then some v else d.get? k' := by
  unfold set
  split
  · next hmem =>
    obtain ⟨value, hvalue⟩ := Option.isSome_iff_exists.mp (get?_isSome_iff.mpr hmem)
    rw [get?_adjust, hvalue, Option.map_some]
  · next hmem =>
    ext value
    rw [get?_eq_some_iff, List.mem_append, List.mem_singleton, ← get?_eq_some_iff, Prod.mk.injEq]
    by_cases hkey : k' = k
    · have hnone : d.get? k' = none := by
        rw [hkey, ← Option.not_isSome_iff_eq_none, get?_isSome_iff]
        exact hmem
      simp [hkey, hkey ▸ hnone, eq_comm]
    · simp [hkey]

theorem get?_foldl_set {entries : List (κ × β)} (hn : (entries.map Prod.fst).Nodup) (k : κ) :
    (entries.foldl (fun merged entry => merged.set entry.1 entry.2) d).get? k =
      (entries.lookup k).or (d.get? k) := by
  induction entries generalizing d with
  | nil => rfl
  | cons entry entries ih =>
    obtain ⟨hnew, hnodup⟩ := List.nodup_cons.mp hn
    rw [List.foldl_cons, ih hnodup, get?_set, List.lookup_cons]
    by_cases hk : k = entry.1
    · have hnone : entries.lookup k = none := by
        rw [List.lookup_eq_none_iff]
        intro other hother
        rw [bne_iff_ne, hk]
        exact fun heq => hnew (heq ▸ List.mem_map_of_mem hother)
      rw [hnone, if_pos hk, hk, beq_self_eq_true]
      rfl
    · rw [if_neg hk, beq_false_of_ne hk]

theorem get?_update (d' : OrderedDict κ β) (k : κ) :
    (d.update d').get? k = (d'.get? k).or (d.get? k) :=
  get?_foldl_set d'.nodupKeys k

theorem size_adjust : (d.adjust k f).size = d.size := List.length_map ..

theorem size_set_of_isSome (h : (d.get? k).isSome) : (d.set k v).size = d.size := by
  unfold set
  rw [dif_pos (get?_isSome_iff.mp h)]
  exact size_adjust

theorem size_set_le : (d.set k v).size ≤ d.size + 1 := by
  unfold set
  split
  · rw [size_adjust]
    exact Nat.le_succ _
  · exact (List.length_append ..).le

end OrderedDict

import Mathlib.Data.List.Induction
import Mathlib.Data.List.Nodup
import Mathlib.Tactic.SplitIfs
import WittyService.UsagePayload

/-! Usage payloads as fields with numbers, and their sum field by field. -/
namespace WittyService

/-- Python's `+` on two numbers, which gives a number. -/
structure NumberAdd where
  add : Json → Json → Json
  isNumber : ∀ a b, a.isNumber → b.isNumber → (add a b).isNumber

structure Dict.Numeric (d : Dict) : Prop where
  keys : (d.map Prod.fst).Nodup
  values : ∀ kv ∈ d, kv.2.isNumber

variable {d base extra : Dict} {k key : String} {value : Json}

theorem Dict.get_append (d : Dict) (k : String) (value : Json) (key : String) :
    Dict.get (d ++ [(k, value)]) key = if k = key then some value else Dict.get d key := by
  simp only [Dict.get, List.reverse_append, List.reverse_singleton, List.singleton_append,
    List.find?_cons]
  split_ifs with h
  · simp [h]
  · simp only [beq_eq_false_iff_ne.mpr h]

theorem Dict.get_map_other (d : Dict) (value : Json) (h : k ≠ key) :
    Dict.get (d.map fun kv => if kv.1 == k then (k, value) else kv) key = Dict.get d key := by
  simp only [Dict.get, ← List.map_reverse]
  induction d.reverse with
  | nil => rfl
  | cons kv rest ih =>
    rw [List.map_cons, List.find?_cons, List.find?_cons]
    by_cases hk : kv.1 = k
    · simp only [hk, beq_self_eq_true, if_true, beq_eq_false_iff_ne.mpr h]
      exact ih
    · simp only [beq_eq_false_iff_ne.mpr hk, Bool.false_eq_true, if_false]
      by_cases hkey : kv.1 = key
      · simp [hkey]
      · simp only [beq_eq_false_iff_ne.mpr hkey]
        exact ih

theorem Dict.get_map_self (d : Dict) (value : Json) (h : d.any fun kv => kv.1 == k) :
    Dict.get (d.map fun kv => if kv.1 == k then (k, value) else kv) k = some value := by
  rw [← List.any_reverse] at h
  simp only [Dict.get, ← List.map_reverse]
  generalize d.reverse = rest at h
  induction rest with
  | nil => cases h
  | cons kv rest ih =>
    rw [List.map_cons, List.find?_cons]
    by_cases hk : kv.1 = k
    · simp [hk]
    · simp only [beq_eq_false_iff_ne.mpr hk, Bool.false_eq_true, if_false]
      rw [List.any_cons, beq_eq_false_iff_ne.mpr hk, Bool.false_or] at h
      exact ih h

theorem Dict.get_set (d : Dict) (k : String) (value : Json) (key : String) :
    Dict.get (Dict.set d k value) key = if k = key then some value else Dict.get d key := by
  unfold Dict.set
  split_ifs with hany hk hk
  · rw [← hk]
    exact Dict.get_map_self d value hany
  · exact Dict.get_map_other d value hk
  · rw [Dict.get_append, if_pos hk]
  · rw [Dict.get_append, if_neg hk]

theorem Dict.mem_set {kv : String × Json} (h : kv ∈ Dict.set d k value) :
    kv = (k, value) ∨ kv ∈ d := by
  unfold Dict.set at h
  split_ifs at h
  · obtain ⟨old, hold, rfl⟩ := List.mem_map.mp h
    split_ifs
    · exact .inl rfl
    · exact .inr hold
  · cases List.mem_append.mp h with
    | inl hmem => exact .inr hmem
    | inr hmem => exact .inl (List.mem_singleton.mp hmem)

theorem Dict.keys_set (d : Dict) (k : String) (value : Json) :
    (Dict.set d k value).map Prod.fst =
      if d.any fun kv => kv.1 == k then d.map Prod.fst else d.map Prod.fst ++ [k] := by
  unfold Dict.set
  split_ifs
  · rw [List.map_map]
    refine List.map_congr_left fun kv _ => ?_
    dsimp only [Function.comp]
    split_ifs with hk
    · exact (eq_of_beq hk).symm
    · rfl
  · rw [List.map_append, List.map_singleton]

namespace Dict.Numeric

theorem nil : Dict.Numeric [] := ⟨List.nodup_nil, fun _ h => absurd h List.not_mem_nil⟩

theorem set (h : d.Numeric) (hvalue : value.isNumber) : (Dict.set d k value).Numeric := by
  constructor
  · rw [Dict.keys_set]
    split_ifs with hany
    · exact h.keys
    · refine List.nodup_append.mpr ⟨h.keys, List.nodup_singleton k, ?_⟩
      rintro name hname other hother rfl
      rw [List.mem_singleton.mp hother] at hname
      obtain ⟨kv, hkv, heq⟩ := List.mem_map.mp hname
      exact hany (List.any_eq_true.mpr ⟨kv, hkv, beq_iff_eq.mpr heq⟩)
  · intro kv hkv
    obtain rfl | hold := Dict.mem_set hkv
    · exact hvalue
    · exact h.values kv hold

theorem get_of_mem (h : d.Numeric) {kv : String × Json} (hmem : kv ∈ d) :
    Dict.get d kv.1 = some kv.2 := by
  have hsome : (d.reverse.find? fun other => other.1 == kv.1).isSome :=
    List.find?_isSome.mpr ⟨kv, List.mem_reverse.mpr hmem, beq_self_eq_true kv.1⟩
  obtain ⟨other, hother⟩ := Option.isSome_iff_exists.mp hsome
  have hkey : other.1 = kv.1 := eq_of_beq
    (List.find?_some (p := fun other : String × Json => other.1 == kv.1) hother)
  have heq : other = kv :=
    List.inj_on_of_nodup_map h.keys (List.mem_reverse.mp (List.mem_of_find?_eq_some hother)) hmem
      hkey
  rw [Dict.get, hother, Option.map_some, heq]

theorem get (h : d.Numeric) (hget : Dict.get d key = some value) : value.isNumber := by
  simp only [Dict.get, Option.map_eq_some_iff] at hget
  obtain ⟨kv, hfind, rfl⟩ := hget
  exact h.values kv (List.mem_reverse.mp (List.mem_of_find?_eq_some hfind))

end Dict.Numeric

/-! What a payload is normalized to has a number in each of its fields. -/

theorem isNumber_pickUsage {payload : Dict} {aliases : List String}
    (h : pickUsage payload aliases = some value) : value.isNumber := by
  obtain ⟨name, -, hname⟩ := List.exists_of_findSome?_eq_some h
  exact (Option.filter_eq_some_iff.mp hname).2

theorem numeric_usageLoop (n : ℕ) (queue : List (Dict × UsageAliases)) (h : d.Numeric) :
    (usageLoop n queue d).Numeric := by
  induction n generalizing queue d with
  | zero => exact h
  | succ n ih =>
    cases queue with
    | nil => exact h
    | cons head queue =>
      obtain ⟨current, aliases⟩ := head
      rw [usageLoop]
      refine ih _ ?_
      induction aliases generalizing d with
      | nil => exact h
      | cons field aliases ihf =>
        rw [List.foldl_cons]
        refine ihf ?_
        split_ifs
        · exact h
        · cases hpick : pickUsage current field.2 with
          | none => exact h
          | some value => exact h.set (isNumber_pickUsage hpick)

section
variable (plus : NumberAdd)

theorem isNumber_foldl (parts : List Json) (start : Json) (hstart : start.isNumber)
    (h : ∀ part ∈ parts, part.isNumber) : (parts.foldl plus.add start).isNumber := by
  induction parts generalizing start with
  | nil => exact hstart
  | cons part parts ih =>
    refine ih _ (plus.isNumber _ _ hstart (h part List.mem_cons_self)) fun other hother => ?_
    exact h other (List.mem_cons_of_mem part hother)

theorem numeric_normalizeUsagePayload (raw : Dict) :
    (normalizeUsagePayload plus.add raw).Numeric := by
  have hloop := numeric_usageLoop (Json.obj raw).nodes [(raw, USAGE_ALIASES)] Dict.Numeric.nil
  unfold normalizeUsagePayload
  dsimp only
  split_ifs
  · exact hloop
  · split
    · exact hloop
    next parts _ =>
      refine hloop.set (isNumber_foldl plus _ _ rfl fun part hpart => ?_)
      obtain ⟨field, -, hget⟩ := List.mem_filterMap.mp hpart
      exact hloop.get hget

/-- What a field holds after `value` is added to it. -/
def addField (current value : Option Json) : Option Json :=
  match current, value with
  | some current, some value => some (plus.add current value)
  | some current, none => some current
  | none, value => value

def mergeField (base : Dict) (kv : String × Json) : Dict :=
  match Dict.get base kv.1 with
  | some current =>
    Dict.set base kv.1 (if current.isNumber && kv.2.isNumber then plus.add current kv.2 else kv.2)
  | none => Dict.set base kv.1 kv.2

theorem mergeUsage_eq (base extra : Dict) :
    mergeUsage plus.add base extra = extra.foldl (mergeField plus) base := rfl

theorem numeric_mergeField (hbase : base.Numeric) (hvalue : value.isNumber) :
    (mergeField plus base (k, value)).Numeric := by
  unfold mergeField
  split
  next current hget =>
    rw [hbase.get hget, hvalue, Bool.and_self, if_pos rfl]
    exact hbase.set (plus.isNumber _ _ (hbase.get hget) hvalue)
  next => exact hbase.set hvalue

theorem get_mergeField (hbase : base.Numeric) (hvalue : value.isNumber) (key : String) :
    Dict.get (mergeField plus base (k, value)) key =
      if k = key then addField plus (Dict.get base key) (some value) else Dict.get base key := by
  unfold mergeField
  split
  next current hget =>
    rw [hbase.get hget, hvalue, Bool.and_self, if_pos rfl, Dict.get_set]
    split_ifs with hk
    · rw [← hk, hget, addField]
    · rfl
  next hget =>
    rw [Dict.get_set]
    split_ifs with hk
    · rw [← hk, hget, addField]
    · rfl

theorem Dict.get_cons (k : String) (value : Json) (d : Dict) (key : String) :
    Dict.get ((k, value) :: d) key =
      (Dict.get d key).or (if k = key then some value else none) := by
  simp only [Dict.get, List.reverse_cons, List.find?_append, List.find?_singleton]
  cases d.reverse.find? fun kv => kv.1 == key with
  | some kv => rfl
  | none =>
    rw [Option.none_or, Option.map_none, Option.none_or]
    by_cases hk : k = key
    · simp [hk]
    · simp [beq_eq_false_iff_ne.mpr hk, hk]

theorem Dict.get_eq_none (h : k ∉ d.map Prod.fst) : Dict.get d k = none := by
  rw [Dict.get, Option.map_eq_none_iff, List.find?_eq_none]
  intro kv hkv heq
  exact h (List.mem_map.mpr ⟨kv, List.mem_reverse.mp hkv, eq_of_beq heq⟩)

theorem numeric_mergeUsage (hbase : base.Numeric) (hextra : extra.Numeric) :
    (mergeUsage plus.add base extra).Numeric := by
  rw [mergeUsage_eq]
  obtain ⟨-, hvalues⟩ := hextra
  induction extra generalizing base with
  | nil => exact hbase
  | cons kv extra ih =>
    rw [List.forall_mem_cons] at hvalues
    exact ih (numeric_mergeField plus hbase hvalues.1) hvalues.2

theorem get_mergeUsage (hbase : base.Numeric) (hextra : extra.Numeric) (key : String) :
    Dict.get (mergeUsage plus.add base extra) key =
      addField plus (Dict.get base key) (Dict.get extra key) := by
  rw [mergeUsage_eq]
  obtain ⟨hkeys, hvalues⟩ := hextra
  induction extra generalizing base with
  | nil =>
    rw [List.foldl_nil, show Dict.get [] key = none from rfl]
    cases hget : Dict.get base key <;> rfl
  | cons kv extra ih =>
    obtain ⟨k, value⟩ := kv
    rw [List.forall_mem_cons] at hvalues
    rw [List.map_cons, List.nodup_cons] at hkeys
    rw [List.foldl_cons, ih (numeric_mergeField plus hbase hvalues.1) hkeys.2 hvalues.2,
      get_mergeField plus hbase hvalues.1, Dict.get_cons]
    split_ifs with hk
    · subst hk
      rw [Dict.get_eq_none hkeys.1, Option.none_or]
      cases Dict.get base k <;> rfl
    · rw [Option.or_none]

def fieldSum (payloads : List Dict) (key : String) : Option Json :=
  payloads.foldl (fun sum payload => addField plus sum (Dict.get payload key)) none

theorem get_foldl_mergeUsage {payloads : List Dict} (h : ∀ payload ∈ payloads, payload.Numeric)
    (key : String) :
    (payloads.foldl (mergeUsage plus.add) []).Numeric ∧
      Dict.get (payloads.foldl (mergeUsage plus.add) []) key = fieldSum plus payloads key := by
  induction payloads using List.reverseRecOn with
  | nil => exact ⟨Dict.Numeric.nil, rfl⟩
  | append_singleton payloads payload ih =>
    rw [List.forall_mem_append] at h
    obtain ⟨hnumeric, hget⟩ := ih h.1
    have hlast : payload.Numeric := h.2 payload (List.mem_singleton.mpr rfl)
    rw [List.foldl_append, List.foldl_cons, List.foldl_nil, fieldSum, List.foldl_append]
    refine ⟨numeric_mergeUsage plus hnumeric hlast, ?_⟩
    rw [get_mergeUsage plus hnumeric hlast, hget]
    rfl

end

end WittyService

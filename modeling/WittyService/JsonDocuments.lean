import Mathlib.Data.List.Nodup
import WittyService.JsonScan

/-! JSON values as documents: what is read of a text, and `json.dumps(..., indent=2,
ensure_ascii=False)`, which is read back. -/
namespace JsonText

open Utf8Text

/-- A number as JSON writes it, or one of the names that stand for a number. -/
def IsLiteral (l : List ℕ) : Prop :=
  (isNumber l = true ∧ ∀ c ∈ l, isNumberChar c = true) ∨ (l, Value.num l) ∈ constants

inductive Value.Written : Value → Prop
  | null : Written .null
  | bool (b : Bool) : Written (.bool b)
  | str (s : List ℕ) : Written (.str s)
  | num {l : List ℕ} (h : IsLiteral l) : Written (.num l)
  | arr {items : List Value} (h : ∀ v ∈ items, v.Written) : Written (.arr items)
  | obj {members : List (List ℕ × Value)} (h : ∀ m ∈ members, m.2.Written) :
    Written (.obj members)

inductive Value.IsDocument : Value → Prop
  | null : IsDocument .null
  | bool (b : Bool) : IsDocument (.bool b)
  | str (s : List ℕ) : IsDocument (.str s)
  | num {l : List ℕ} (h : IsLiteral l) : IsDocument (.num l)
  | arr {items : List Value} (h : ∀ v ∈ items, v.IsDocument) : IsDocument (.arr items)
  | obj {members : List (List ℕ × Value)} (hkeys : (members.map Prod.fst).Nodup)
      (h : ∀ m ∈ members, m.2.IsDocument) : IsDocument (.obj members)

def newline (level : ℕ) : List ℕ := 10 :: List.replicate (2 * level) 32

mutual

def render : ℕ → Value → List ℕ
  | _, .null => text "null"
  | _, .bool b => if b then text "true" else text "false"
  | _, .num literal => literal
  | _, .str s => renderString s
  | _, .arr [] => text "[]"
  | level, .arr (v :: items) =>
    91 :: newline (level + 1) ++ render (level + 1) v ++ renderItems (level + 1) items ++
      newline level ++ [93]
  | _, .obj [] => text "{}"
  | level, .obj ((key, v) :: members) =>
    123 :: newline (level + 1) ++ renderString key ++ text ": " ++ render (level + 1) v ++
      renderMembers (level + 1) members ++ newline level ++ [125]

def renderItems : ℕ → List Value → List ℕ
  | _, [] => []
  | level, v :: items => 44 :: newline level ++ render level v ++ renderItems level items

def renderMembers : ℕ → List (List ℕ × Value) → List ℕ
  | _, [] => []
  | level, (key, v) :: members =>
    44 :: newline level ++ renderString key ++ text ": " ++ render level v ++
      renderMembers level members

end

/-- `json.dumps(value, indent=2, ensure_ascii=False)`. -/
def dumps (v : Value) : List ℕ := render 0 v

variable {n m : ℕ} {t u r l key : List ℕ} {v j : Value} {items : List Value}
  {members dict : List (List ℕ × Value)}

theorem written_constant {c : List ℕ × Value} (hc : c ∈ constants) : c.2.Written := by
  have hnum : ∀ l, (l, Value.num l) ∈ constants → (Value.num l).Written :=
    fun l hl => .num (Or.inr hl)
  simp only [constants, List.mem_cons, List.not_mem_nil, or_false] at hc
  rcases hc with rfl | rfl | rfl | rfl | rfl | rfl
  · exact .null
  · exact .bool _
  · exact .bool _
  · exact hnum _ (by simp [constants])
  · exact hnum _ (by simp [constants])
  · exact hnum _ (by simp [constants])

theorem parseAtom_written (h : (parseNumber u).or (parseConstant u) = some (j, r)) :
    j.Written := by
  rcases Option.or_eq_some_iff.mp h with hnumber | ⟨-, hconstant⟩
  · unfold parseNumber at hnumber
    split_ifs at hnumber with hliteral
    cases hnumber
    exact .num (Or.inl ⟨hliteral, fun c hc => List.mem_takeWhile_imp hc⟩)
  · obtain ⟨c, hc, rfl, -⟩ := parseConstant_cases hconstant
    exact written_constant hc

theorem parse_written (n : ℕ) :
    (∀ (u r : List ℕ) (j : Value), parseValue n u = some (j, r) → j.Written) ∧
      (∀ (u r : List ℕ) (ms : List (List ℕ × Value)), parseMembers n u = some (ms, r) →
        ∀ m ∈ ms, m.2.Written) ∧
      (∀ (u r : List ℕ) (js : List Value), parseItems n u = some (js, r) →
        ∀ j ∈ js, j.Written) := by
  induction n with
  | zero =>
    refine ⟨?_, ?_, ?_⟩
    · intro u r j h
      cases h
    · intro u r ms h
      cases h
    · intro u r js h
      cases h
  | succ n ih =>
    obtain ⟨ihValue, ihMembers, ihItems⟩ := ih
    refine ⟨?_, ?_, ?_⟩
    · intro u r j h
      cases u with
      | nil => cases h
      | cons c rest =>
        rw [parseValue] at h
        by_cases hquote : c = 34
        · rw [if_pos hquote] at h
          obtain ⟨s, -, heq⟩ := Option.map_eq_some_iff.mp h
          cases heq
          exact .str _
        rw [if_neg hquote] at h
        by_cases hbrace : c = 123
        · split_ifs at h
          · cases h
            exact .obj fun m hm => by cases hm
          · obtain ⟨⟨ms, r'⟩, hms, heq⟩ := Option.map_eq_some_iff.mp h
            cases heq
            exact .obj (ihMembers _ _ _ hms)
        rw [if_neg hbrace] at h
        by_cases hbracket : c = 91
        · split_ifs at h
          · cases h
            exact .arr fun v hv => by cases hv
          · obtain ⟨⟨js, r'⟩, hjs, heq⟩ := Option.map_eq_some_iff.mp h
            cases heq
            exact .arr (ihItems _ _ _ hjs)
        rw [if_neg hbracket] at h
        exact parseAtom_written h
    · intro u r ms h
      rw [parseMembers] at h
      split_ifs at h
      obtain ⟨key, -, h⟩ := Option.bind_eq_some_iff.mp h
      split_ifs at h
      obtain ⟨⟨value, rest⟩, hvalue, h⟩ := Option.bind_eq_some_iff.mp h
      dsimp only at h
      split_ifs at h
      · obtain ⟨⟨ms', r'⟩, hms, heq⟩ := Option.map_eq_some_iff.mp h
        cases heq
        exact List.forall_mem_cons.mpr ⟨ihValue _ _ _ hvalue, ihMembers _ _ _ hms⟩
      · cases h
        exact List.forall_mem_singleton.mpr (ihValue _ _ _ hvalue)
    · intro u r js h
      obtain ⟨⟨value, rest⟩, hvalue, h⟩ := Option.bind_eq_some_iff.mp h
      dsimp only at h
      split_ifs at h
      · obtain ⟨⟨js', r'⟩, hjs, heq⟩ := Option.map_eq_some_iff.mp h
        cases heq
        exact List.forall_mem_cons.mpr ⟨ihValue _ _ _ hvalue, ihItems _ _ _ hjs⟩
      · cases h
        exact List.forall_mem_singleton.mpr (ihValue _ _ _ hvalue)

theorem loads_written (h : loads t = some j) : j.Written := by
  unfold loads at h
  split_ifs at h
  obtain ⟨⟨j', r⟩, hvalue, hrest⟩ := Option.bind_eq_some_iff.mp h
  split_ifs at hrest
  cases hrest
  exact (parse_written _).1 _ _ _ hvalue

theorem keys_setKey : (setKey key v dict).map Prod.fst =
    if key ∈ dict.map Prod.fst then dict.map Prod.fst else dict.map Prod.fst ++ [key] := by
  induction dict with
  | nil => rfl
  | cons m dict ih =>
    rw [setKey]
    by_cases hkey : m.1 = key
    · rw [if_pos hkey, if_pos (by simp [hkey])]
      rfl
    · rw [if_neg hkey, List.map_cons, ih]
      have hiff : key ∈ (m :: dict).map Prod.fst ↔ key ∈ dict.map Prod.fst := by
        rw [List.map_cons, List.mem_cons]
        exact or_iff_right fun heq => hkey heq.symm
      by_cases hmem : key ∈ dict.map Prod.fst
      · rw [if_pos hmem, if_pos (hiff.mpr hmem)]
        rfl
      · rw [if_neg hmem, if_neg fun h => hmem (hiff.mp h)]
        rfl

theorem nodup_setKey (h : (dict.map Prod.fst).Nodup) :
    ((setKey key v dict).map Prod.fst).Nodup := by
  rw [keys_setKey]
  split_ifs with hmem
  · exact h
  · exact List.nodup_append.mpr ⟨h, List.nodup_singleton key, by
      rintro a ha b hb rfl
      rw [List.mem_singleton.mp hb] at ha
      exact hmem ha⟩

theorem mem_setKey {m : List ℕ × Value} (h : m ∈ setKey key v dict) :
    m.2 = v ∨ m ∈ dict := by
  induction dict with
  | nil =>
    rw [List.mem_singleton.mp h]
    exact Or.inl rfl
  | cons m' dict ih =>
    rw [setKey] at h
    split_ifs at h
    · rcases List.mem_cons.mp h with rfl | h
      · exact Or.inl rfl
      · exact Or.inr (List.mem_cons_of_mem _ h)
    · rcases List.mem_cons.mp h with rfl | h
      · exact Or.inr List.mem_cons_self
      · exact (ih h).imp_right (List.mem_cons_of_mem _)

theorem setKey_of_notMem (h : key ∉ dict.map Prod.fst) : setKey key v dict = dict ++ [(key,
  v)] := by
  induction dict with
  | nil => rfl
  | cons m dict ih =>
    obtain ⟨hne, hrest⟩ := not_or.mp (mt List.mem_cons.mpr h)
    rw [setKey, if_neg fun heq => hne heq.symm, ih hrest]
    rfl

theorem lookup_cons_of_ne {key' : List ℕ} (h : key' ≠ key) :
    ((key, v) :: dict).lookup key' = dict.lookup key' := by
  rw [List.lookup_cons, beq_false_of_ne h]

theorem lookup_setKey (key' : List ℕ) :
    (setKey key v dict).lookup key' = if key' = key then some v else dict.lookup key' := by
  induction dict with
  | nil =>
    split_ifs with heq
    · rw [heq]
      exact List.lookup_cons_self
    · exact lookup_cons_of_ne heq
  | cons m dict ih =>
    obtain ⟨k, w⟩ := m
    rw [setKey]
    by_cases hkey : k = key
    · subst hkey
      rw [if_pos rfl]
      split_ifs with heq
      · rw [heq]
        exact List.lookup_cons_self
      · rw [lookup_cons_of_ne heq, lookup_cons_of_ne heq]
    · rw [if_neg hkey]
      by_cases heq : key' = k
      · subst heq
        rw [List.lookup_cons_self, List.lookup_cons_self, if_neg hkey]
      · rw [lookup_cons_of_ne heq, ih, lookup_cons_of_ne heq]

theorem itemsDict_eq (items : List Value) : itemsDict items = items.map Value.asDict := by
  induction items with
  | nil => rfl
  | cons v items ih => rw [itemsDict, ih, List.map_cons]

theorem membersDict_isDocument (hmembers : ∀ m ∈ members, m.2.asDict.IsDocument)
    (hkeys : (dict.map Prod.fst).Nodup) (hdict : ∀ m ∈ dict, m.2.IsDocument) :
    (Value.obj (membersDict members dict)).IsDocument := by
  induction members generalizing dict with
  | nil => exact .obj hkeys hdict
  | cons m members ih =>
    obtain ⟨hv, hmembers⟩ := List.forall_mem_cons.mp hmembers
    apply ih hmembers (nodup_setKey hkeys)
    intro m hm
    rcases mem_setKey hm with heq | hm
    · rw [heq]
      exact hv
    · exact hdict m hm

theorem Value.Written.asDict (h : v.Written) : v.asDict.IsDocument := by
  induction h with
  | null => exact .null
  | bool b => exact .bool b
  | str s => exact .str s
  | num h => exact .num h
  | arr _ ih =>
    rw [Value.asDict, itemsDict_eq]
    apply IsDocument.arr
    intro v hv
    obtain ⟨w, hw, rfl⟩ := List.mem_map.mp hv
    exact ih w hw
  | obj _ ih => exact membersDict_isDocument ih List.nodup_nil fun m hm => by cases hm

theorem membersDict_eq (hmembers : ∀ m ∈ members, m.2.asDict = m.2)
    (hkeys : ((dict ++ members).map Prod.fst).Nodup) :
    membersDict members dict = dict ++ members := by
  induction members generalizing dict with
  | nil => rw [membersDict, List.append_nil]
  | cons m members ih =>
    obtain ⟨key, v⟩ := m
    obtain ⟨hv, hmembers⟩ := List.forall_mem_cons.mp hmembers
    have hnew : key ∉ dict.map Prod.fst := by
      rw [List.map_append, List.map_cons] at hkeys
      intro hmem
      exact (List.nodup_append.mp hkeys).2.2 key hmem key List.mem_cons_self rfl
    rw [membersDict, hv, setKey_of_notMem hnew, ih hmembers, List.append_assoc]
    · rfl
    · rwa [List.append_assoc]

theorem Value.IsDocument.asDict_eq (h : v.IsDocument) : v.asDict = v := by
  induction h with
  | null | bool | str | num => rfl
  | arr _ ih =>
    rw [Value.asDict, itemsDict_eq]
    exact congrArg Value.arr ((List.map_congr_left ih).trans (List.map_id' _))
  | @obj members hkeys _ ih =>
    have hsame : membersDict members [] = [] ++ members := membersDict_eq ih hkeys
    rw [Value.asDict, hsame]
    rfl

variable {c fuel level : ℕ} {chars : List ℕ}

theorem Reads.mono {fuel' : ℕ} (h : Reads fuel t v) (hle : fuel ≤ fuel') : Reads fuel' t v where
  head := h.head
  reads m hm := h.reads m (hle.trans hm)

theorem Reads.length_pos (h : Reads fuel t v) : 1 ≤ t.length := by
  obtain ⟨c, rest, rfl, -⟩ := h.head
  exact Nat.succ_pos _

theorem parseValue_atom (hquote : c ≠ 34) (hbrace : c ≠ 123) (hbracket : c ≠ 91) (t : List ℕ) :
    parseValue (m + 1) (c :: t) = (parseNumber (c :: t)).or (parseConstant (c :: t)) := by
  rw [parseValue, if_neg hquote, if_neg hbrace, if_neg hbracket]

theorem Reads.head_ne (h : Reads fuel t v) (r : List ℕ) : (t ++ r).head? ≠ some 93 := by
  obtain ⟨c, rest, rfl, -⟩ := h.head
  intro hhead
  cases hhead
  have hread := h.reads (fuel + 1) (Nat.le_succ fuel) [] (by rintro c hc; cases hc)
  rw [List.append_nil, parseValue_atom (by decide) (by decide) (by decide)] at hread
  rcases Option.or_eq_some_iff.mp hread with hnumber | ⟨-, hconstant⟩
  · cases hnumber
  · obtain ⟨c, hc, -, heq⟩ := parseConstant_cases hconstant
    simp only [constants, List.mem_cons, List.not_mem_nil, or_false] at hc
    rcases hc with rfl | rfl | rfl | rfl | rfl | rfl <;> cases heq

theorem reads_constant {c : List ℕ × Value} (hc : c ∈ constants) : Reads 1 c.1 c.2 := by
  have hhead : ∃ d rest, c.1 = d :: rest ∧ isWs d = false ∧ d ≠ 34 ∧ d ≠ 123 ∧ d ≠ 91 := by
    simp only [constants, List.mem_cons, List.not_mem_nil, or_false] at hc
    rcases hc with rfl | rfl | rfl | rfl | rfl | rfl <;>
      exact ⟨_, _, rfl, by decide, by decide, by decide, by decide⟩
  obtain ⟨d, rest, hd, hws, hquote, hbrace, hbracket⟩ := hhead
  refine ⟨⟨d, rest, hd, hws⟩, ?_⟩
  intro m hm r _
  obtain ⟨m, rfl⟩ := Nat.exists_eq_add_of_le' hm
  have hatom := parseValue_atom (m := m) hquote hbrace hbracket (rest ++ r)
  rw [← List.cons_append, ← hd, parseNumber_constant hc, parseConstant_of_prefix hc] at hatom
  exact hatom

theorem reads_literal (h : IsLiteral l) : Reads 1 l (.num l) := by
  rcases h with ⟨hnumber, hchars⟩ | hconstant
  · cases l with
    | nil => cases hnumber
    | cons c l =>
      have hc := hchars c List.mem_cons_self
      have hplain : isWs c = false ∧ c ≠ 34 ∧ c ≠ 123 ∧ c ≠ 91 := by
        refine ⟨?_, ?_, ?_, ?_⟩
        · apply Bool.eq_false_iff.mpr
          intro hws
          simp only [isWs, Bool.or_eq_true, decide_eq_true_eq] at hws
          rcases hws with ((rfl | rfl) | rfl) | rfl <;> revert hc <;> decide
        · rintro rfl
          revert hc
          decide
        · rintro rfl
          revert hc
          decide
        · rintro rfl
          revert hc
          decide
      obtain ⟨hws, hquote, hbrace, hbracket⟩ := hplain
      refine ⟨⟨c, l, rfl, hws⟩, ?_⟩
      intro m hm r hr
      obtain ⟨m, rfl⟩ := Nat.exists_eq_add_of_le' hm
      have hstop : r.takeWhile isNumberChar = [] ∧ r.dropWhile isNumberChar = r := by
        cases r with
        | nil => exact ⟨rfl, rfl⟩
        | cons d r =>
          have hd := hr d rfl
          exact ⟨List.takeWhile_cons_of_neg (by simp [hd]),
            List.dropWhile_cons_of_neg (by simp [hd])⟩
      have htake : (c :: l ++ r).takeWhile isNumberChar = c :: l := by
        rw [List.takeWhile_append_of_pos hchars, hstop.1, List.append_nil]
      have hdrop : (c :: l ++ r).dropWhile isNumberChar = r := by
        rw [List.dropWhile_append_of_pos hchars, hstop.2]
      rw [List.cons_append, parseValue_atom hquote hbrace hbracket, ← List.cons_append,
        parseNumber, htake, hdrop, if_pos hnumber]
      rfl
  · exact reads_constant hconstant

theorem skipWs_newline (level : ℕ) (h : isWs c = false) (t : List ℕ) :
    skipWs (newline level ++ c :: t) = c :: t := by
  have hall : ∀ x ∈ newline level, isWs x = true := by
    intro x hx
    rcases List.mem_cons.mp hx with rfl | hx
    · decide
    · rw [List.eq_of_mem_replicate hx]
      decide
  rw [skipWs, List.dropWhile_append_of_pos hall]
  exact skipWs_of_not_ws h t

theorem parseItems_rendered (back : ℕ)
    (hitems : ∀ w ∈ v :: items, Reads (render level w).length (render level w) w)
    (hm : (render level v ++ renderItems level items).length < m) (r : List ℕ) :
    parseItems m (render level v ++ renderItems level items ++ newline back ++ 93 :: r) =
      some (v :: items, r) := by
  induction items generalizing v m with
  | nil =>
    obtain ⟨m, rfl⟩ := Nat.exists_eq_succ_of_ne_zero (Nat.ne_of_gt (Nat.zero_lt_of_lt hm))
    rw [renderItems, List.append_nil] at hm ⊢
    have hvalue := (hitems v List.mem_cons_self).reads m (Nat.le_of_lt_succ hm)
      (newline back ++ 93 :: r) (by rintro c hc; cases hc; decide)
    rw [List.append_assoc, parseItems, hvalue, Option.bind_some]
    dsimp only
    rw [skipWs_newline back (by decide), List.head?_cons, if_neg (by decide), if_pos rfl]
    rfl
  | cons w items ih =>
    obtain ⟨m, rfl⟩ := Nat.exists_eq_succ_of_ne_zero (Nat.ne_of_gt (Nat.zero_lt_of_lt hm))
    obtain ⟨hv, hrest⟩ := List.forall_mem_cons.mp hitems
    rw [renderItems] at hm ⊢
    simp only [List.length_append, List.length_cons] at hm
    have hmore := ih (m := m) hrest (by rw [List.length_append]; omega)
    obtain ⟨c, t, hc, hws⟩ := (List.forall_mem_cons.mp hrest).1.head
    have hvalue := hv.reads m (by omega) (44 :: (newline level ++ (render level w ++
      renderItems level items ++ newline back ++ 93 :: r))) (by rintro c hc; cases hc; decide)
    have hsplit : render level v ++ (44 :: newline level ++ render level w ++
        renderItems level items) ++ newline back ++ 93 :: r =
          render level v ++ (44 :: (newline level ++ (render level w ++ renderItems level items ++
            newline back ++ 93 :: r))) := by simp
    have hskip : skipWs (newline level ++ (render level w ++ renderItems level items ++
        newline back ++ 93 :: r)) = render level w ++ renderItems level items ++
          newline back ++ 93 :: r := by
      rw [hc]
      exact skipWs_newline level hws _
    rw [hsplit, parseItems, hvalue, Option.bind_some]
    dsimp only
    rw [skipWs_of_not_ws (by decide), List.head?_cons, if_pos rfl, List.drop_succ_cons,
      List.drop_zero, hskip, hmore]
    rfl

theorem parseMembers_indented (back : ℕ)
    (hmembers : ∀ w ∈ (key, v) :: members, (Member.mk w.1 (render level w.2) w.2).Readable
      (render level w.2).length)
    (hm : (renderString key ++ text ": " ++ render level v ++
      renderMembers level members).length < m) (r : List ℕ) :
    parseMembers m (renderString key ++ text ": " ++ render level v ++
        renderMembers level members ++ newline back ++ 125 :: r) =
      some ((key, v) :: members, r) := by
  induction members generalizing key v m with
  | nil =>
    obtain ⟨m, rfl⟩ := Nat.exists_eq_succ_of_ne_zero (Nat.ne_of_gt (Nat.zero_lt_of_lt hm))
    rw [renderMembers, List.append_nil] at hm ⊢
    simp only [List.length_append] at hm
    have hmember := parseMember_text (n := m) (hmembers _ List.mem_cons_self) (by dsimp only; omega)
      (t := newline back ++ 125 :: r) (by rintro c hc; cases hc; decide)
    rw [skipWs_newline back (by decide), List.head?_cons, if_neg (by decide), if_pos rfl] at hmember
    rw [List.append_assoc]
    exact hmember
  | cons w members ih =>
    obtain ⟨key', w⟩ := w
    obtain ⟨m, rfl⟩ := Nat.exists_eq_succ_of_ne_zero (Nat.ne_of_gt (Nat.zero_lt_of_lt hm))
    obtain ⟨hv, hrest⟩ := List.forall_mem_cons.mp hmembers
    rw [renderMembers] at hm ⊢
    simp only [List.length_append, List.length_cons] at hm
    have hmore := ih (m := m) hrest (by simp only [List.length_append]; omega)
    have hmember := parseMember_text (n := m) hv (by dsimp only; omega)
      (t := 44 :: (newline level ++ (renderString key' ++ text ": " ++ render level w ++
        renderMembers level members ++ newline back ++ 125 :: r)))
      (by rintro c hc; cases hc; decide)
    have hsplit : renderString key ++ text ": " ++ render level v ++ (44 :: newline level ++
        renderString key' ++ text ": " ++ render level w ++ renderMembers level members) ++
          newline back ++ 125 :: r =
        renderString key ++ text ": " ++ render level v ++ (44 :: (newline level ++
          (renderString key' ++ text ": " ++ render level w ++ renderMembers level members ++
            newline back ++ 125 :: r))) := by simp
    have hskip : skipWs (newline level ++ (renderString key' ++ text ": " ++ render level w ++
        renderMembers level members ++ newline back ++ 125 :: r)) =
          renderString key' ++ text ": " ++ render level w ++ renderMembers level members ++
            newline back ++ 125 :: r :=
      skipWs_newline level (c := 34) (by decide) _
    rw [skipWs_of_not_ws (by decide), List.head?_cons, if_pos rfl, List.drop_succ_cons,
      List.drop_zero, hskip, hmore] at hmember
    rw [hsplit]
    exact hmember

theorem mem_itemsChars (hv : v ∈ items) (hc : c ∈ v.chars) : c ∈ itemsChars items := by
  induction items with
  | nil => cases hv
  | cons w items ih =>
    rw [itemsChars, List.mem_append]
    rcases List.mem_cons.mp hv with rfl | hv
    · exact Or.inl hc
    · exact Or.inr (ih hv)

theorem mem_membersChars {w : List ℕ × Value} (hw : w ∈ members)
    (hc : c ∈ w.1 ∨ c ∈ w.2.chars) : c ∈ membersChars members := by
  induction members with
  | nil => cases hw
  | cons w' members ih =>
    rw [membersChars, List.mem_append, List.mem_append]
    rcases List.mem_cons.mp hw with rfl | hw
    · exact Or.inl hc
    · exact Or.inr (ih hw)

theorem Value.IsDocument.reads (h : v.IsDocument) (hs : ∀ c ∈ v.chars, ¬ IsSurrogate c)
    (level : ℕ) : Reads (render level v).length (render level v) v := by
  induction h generalizing level with
  | null =>
    have hread := reads_constant (c := (text "null", .null)) List.mem_cons_self
    exact hread.mono hread.length_pos
  | bool b =>
    cases b with
    | true =>
      have hread := reads_constant (c := (text "true", .bool true)) (by simp [constants])
      exact hread.mono hread.length_pos
    | false =>
      have hread := reads_constant (c := (text "false", .bool false)) (by simp [constants])
      exact hread.mono hread.length_pos
  | str s => exact (reads_string hs).mono (reads_string hs).length_pos
  | num h => exact (reads_literal h).mono (reads_literal h).length_pos
  | @arr items _ ih =>
    have hitems : ∀ w ∈ items, Reads (render (level + 1) w).length (render (level + 1) w) w :=
      fun w hw => ih w hw (fun c hc => hs c (mem_itemsChars hw hc)) (level + 1)
    cases items with
    | nil =>
      refine ⟨⟨91, _, rfl, rfl⟩, ?_⟩
      intro m hm r _
      obtain ⟨m, rfl⟩ := Nat.exists_eq_succ_of_ne_zero (Nat.ne_of_gt (Nat.zero_lt_of_lt hm))
      rfl
    | cons w items =>
      refine ⟨⟨91, _, rfl, rfl⟩, ?_⟩
      intro m hm r _
      obtain ⟨m, rfl⟩ := Nat.exists_eq_succ_of_ne_zero (Nat.ne_of_gt (Nat.zero_lt_of_lt hm))
      obtain ⟨c, t, hc, hws⟩ := (List.forall_mem_cons.mp hitems).1.head
      have hread := parseItems_rendered (m := m) level hitems (by
        simp only [render, newline, List.length_append, List.length_cons] at hm ⊢
        omega) r
      have hsplit : render level (.arr (w :: items)) ++ r = 91 :: (newline (level + 1) ++
          (render (level + 1) w ++ renderItems (level + 1) items ++ newline level ++ 93 :: r)) := by
        simp [render]
      have hskip : skipWs (newline (level + 1) ++ (render (level + 1) w ++
          renderItems (level + 1) items ++ newline level ++ 93 :: r)) =
            render (level + 1) w ++ renderItems (level + 1) items ++ newline level ++ 93 :: r := by
        rw [hc]
        exact skipWs_newline _ hws _
      have hopen : (render (level + 1) w ++ renderItems (level + 1) items ++ newline level ++
          93 :: r).head? ≠ some 93 := by
        rw [List.append_assoc, List.append_assoc]
        exact (hitems w List.mem_cons_self).head_ne _
      rw [hsplit, parseValue, if_neg (by decide), if_neg (by decide), if_pos rfl, hskip,
        if_neg hopen, hread]
      rfl
  | @obj members hkeys _ ih =>
    cases members with
    | nil =>
      refine ⟨⟨123, _, rfl, rfl⟩, ?_⟩
      intro m hm r _
      obtain ⟨m, rfl⟩ := Nat.exists_eq_succ_of_ne_zero (Nat.ne_of_gt (Nat.zero_lt_of_lt hm))
      rfl
    | cons w members =>
      obtain ⟨key, v⟩ := w
      refine ⟨⟨123, _, rfl, rfl⟩, ?_⟩
      intro m hm r _
      obtain ⟨m, rfl⟩ := Nat.exists_eq_succ_of_ne_zero (Nat.ne_of_gt (Nat.zero_lt_of_lt hm))
      have hreadable : ∀ w ∈ (key, v) :: members,
          (Member.mk w.1 (render (level + 1) w.2) w.2).Readable
            (render (level + 1) w.2).length := by
        intro w hw
        have hchars : ∀ c, c ∈ w.1 ∨ c ∈ w.2.chars → ¬ IsSurrogate c :=
          fun c hc => hs c (mem_membersChars hw hc)
        exact ⟨fun c hc => hchars c (Or.inl hc),
          ih w hw (fun c hc => hchars c (Or.inr hc)) (level + 1)⟩
      have hread := parseMembers_indented (m := m) level hreadable (by
        simp only [render, newline, List.length_append, List.length_cons] at hm ⊢
        omega) r
      have hsplit : render level (.obj ((key, v) :: members)) ++ r =
          123 :: (newline (level + 1) ++ (renderString key ++ text ": " ++ render (level + 1) v ++
            renderMembers (level + 1) members ++ newline level ++ 125 :: r)) := by
        simp [render]
      have hskip : skipWs (newline (level + 1) ++ (renderString key ++ text ": " ++
          render (level + 1) v ++ renderMembers (level + 1) members ++ newline level ++ 125 :: r)) =
            renderString key ++ text ": " ++ render (level + 1) v ++
              renderMembers (level + 1) members ++ newline level ++ 125 :: r :=
        skipWs_newline _ (c := 34) (by decide) _
      rw [hsplit, parseValue, if_neg (by decide), if_pos rfl, hskip,
        if_neg (by rw [renderString]; simp), hread]
      rfl

/-- A letter that is ASCII, or one of these, and no carriage return. -/
def PlainOr (chars : List ℕ) (c : ℕ) : Prop := c ≠ 13 ∧ (c < 0x80 ∨ c ∈ chars)

theorem PlainOr.mono {chars' : List ℕ} (h : PlainOr chars c)
    (hsub : ∀ c ∈ chars, c ∈ chars') : PlainOr chars' c := ⟨h.1, h.2.imp_right (hsub c)⟩

theorem plain_renderString {s : List ℕ} (hc : c ∈ renderString s) : PlainOr s c := by
  refine ⟨(renderString_oneLine s c hc).2, ?_⟩
  simp only [renderString, List.cons_append, List.mem_cons, List.mem_append, List.mem_flatMap,
    List.not_mem_nil, or_false] at hc
  rcases hc with rfl | ⟨d, hd, hc⟩ | rfl
  · exact Or.inl (by decide)
  · have hdigit : ∀ n < 16, hexDigit n < 0x80 := by decide
    unfold escapeOne at hc
    split_ifs at hc <;> simp only [List.mem_cons, List.not_mem_nil, or_false] at hc
    · omega
    · omega
    · omega
    · omega
    · omega
    · omega
    · omega
    · have hhigh := hdigit (d / 16) (by omega)
      have hlow := hdigit (d % 16) (by omega)
      omega
    · exact Or.inr (hc ▸ hd)
  · exact Or.inl (by decide)

theorem plain_newline (hc : c ∈ newline level) :
    PlainOr chars c := by
  rcases List.mem_cons.mp hc with rfl | hc
  · exact ⟨by decide, Or.inl (by decide)⟩
  · rw [List.eq_of_mem_replicate hc]
    exact ⟨by decide, Or.inl (by decide)⟩

theorem plain_text
    (ht : (t.all fun c => c < 0x80 && c ≠ 13) = true) (hc : c ∈ t) : PlainOr chars c := by
  have hall := List.all_eq_true.mp ht c hc
  simp only [Bool.and_eq_true, decide_eq_true_eq] at hall
  exact ⟨hall.2, Or.inl hall.1⟩

theorem plain_literal (h : IsLiteral l) (hc : c ∈ l) :
    PlainOr chars c := by
  rcases h with ⟨-, hchars⟩ | hconstant
  · have hnumber := hchars c hc
    simp [isNumberChar, isDigit]
      at hnumber
    rcases hnumber with ⟨hlow, hhigh⟩ | hsign
    · exact ⟨by omega, Or.inl (by omega)⟩
    · exact plain_text (t := text "+-.eE") (by decide) hsign
  · have hall : ∀ d ∈ constants, (d.1.all fun c => c < 0x80 && c ≠ 13) = true := by decide
    exact plain_text (hall _ hconstant) hc

theorem Value.IsDocument.plain (h : v.IsDocument) (hc : c ∈ render level v) :
    PlainOr v.chars c := by
  induction h generalizing level with
  | null => exact plain_text (t := text "null") (by decide) hc
  | bool b =>
    cases b with
    | true => exact plain_text (t := text "true") (by decide) hc
    | false => exact plain_text (t := text "false") (by decide) hc
  | str s => exact plain_renderString hc
  | num h => exact plain_literal h hc
  | @arr items _ ih =>
    have hitem : ∀ w ∈ items, c ∈ render (level + 1) w → PlainOr (itemsChars items) c :=
      fun w hw hc => (ih w hw hc).mono fun c hc => mem_itemsChars hw hc
    have hitems : ∀ l : List Value, (∀ w ∈ l, w ∈ items) → c ∈ renderItems (level + 1) l →
        PlainOr (itemsChars items) c := by
      intro l
      induction l with
      | nil =>
        intro _ hc
        cases hc
      | cons w l ihl =>
        intro hsub hc
        obtain ⟨hw, hl⟩ := List.forall_mem_cons.mp hsub
        rw [renderItems, List.cons_append, List.cons_append, List.mem_cons, List.mem_append,
          List.mem_append] at hc
        rcases hc with rfl | (hc | hc) | hc
        · exact ⟨by decide, Or.inl (by decide)⟩
        · exact plain_newline hc
        · exact hitem w hw hc
        · exact ihl hl hc
    cases items with
    | nil => exact plain_text (t := text "[]") (by decide) hc
    | cons w items =>
      simp only [render, List.cons_append, List.mem_cons, List.mem_append, List.not_mem_nil,
        or_false] at hc
      rcases hc with rfl | (((hc | hc) | hc) | hc) | rfl
      · exact ⟨by decide, Or.inl (by decide)⟩
      · exact plain_newline hc
      · exact hitem w List.mem_cons_self hc
      · exact hitems items (fun w hw => List.mem_cons_of_mem _ hw) hc
      · exact plain_newline hc
      · exact ⟨by decide, Or.inl (by decide)⟩
  | @obj members _ _ ih =>
    have hvalue : ∀ w ∈ members, c ∈ render (level + 1) w.2 → PlainOr (membersChars members) c :=
      fun w hw hc => (ih w hw hc).mono fun c hc => mem_membersChars hw (Or.inr hc)
    have hkey : ∀ w ∈ members, c ∈ renderString w.1 → PlainOr (membersChars members) c :=
      fun w hw hc => (plain_renderString hc).mono fun c hc => mem_membersChars hw (Or.inl hc)
    have hcolon : c ∈ text ": " → PlainOr (membersChars members) c := plain_text (by decide)
    have hmembers : ∀ l : List (List ℕ × Value), (∀ w ∈ l, w ∈ members) →
        c ∈ renderMembers (level + 1) l → PlainOr (membersChars members) c := by
      intro l
      induction l with
      | nil =>
        intro _ hc
        cases hc
      | cons w l ihl =>
        intro hsub hc
        obtain ⟨hw, hl⟩ := List.forall_mem_cons.mp hsub
        rw [renderMembers] at hc
        simp only [List.cons_append, List.mem_cons, List.mem_append] at hc
        rcases hc with rfl | (((hc | hc) | hc) | hc) | hc
        · exact ⟨by decide, Or.inl (by decide)⟩
        · exact plain_newline hc
        · exact hkey w hw hc
        · exact hcolon hc
        · exact hvalue w hw hc
        · exact ihl hl hc
    cases members with
    | nil => exact plain_text (t := text "{}") (by decide) hc
    | cons w members =>
      simp only [render, List.cons_append, List.mem_cons, List.mem_append, List.not_mem_nil,
        or_false] at hc
      rcases hc with rfl | (((((hc | hc) | hc) | hc) | hc) | hc) | rfl
      · exact ⟨by decide, Or.inl (by decide)⟩
      · exact plain_newline hc
      · exact hkey w List.mem_cons_self hc
      · exact hcolon hc
      · exact hvalue w List.mem_cons_self hc
      · exact hmembers members (fun w hw => List.mem_cons_of_mem _ hw) hc
      · exact plain_newline hc
      · exact ⟨by decide, Or.inl (by decide)⟩

theorem loads_dumps {members : List (List ℕ × Value)} (h : (Value.obj members).IsDocument)
    (hs : ∀ c ∈ membersChars members, ¬ IsSurrogate c) :
    loads (dumps (.obj members)) = some (.obj members) := by
  apply loads_of_reads (h.reads hs 0) (Nat.le_succ _)
  cases members with
  | nil => simp [render, text]
  | cons m members => simp [render]

end JsonText

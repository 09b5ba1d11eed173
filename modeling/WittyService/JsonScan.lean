import Mathlib.Data.List.TakeWhile
import WittyService.CodeLines
import WittyService.JsonText

/-! What a JSON text is outside its strings, and what its strings have of the text. -/
namespace JsonText

open CodeLines Utf8Text

mutual

def Value.chars : Value → List ℕ
  | .str s => s
  | .arr items => itemsChars items
  | .obj members => membersChars members
  | .null | .bool _ | .num _ => []

def itemsChars : List Value → List ℕ
  | [] => []
  | v :: items => v.chars ++ itemsChars items

def membersChars : List (List ℕ × Value) → List ℕ
  | [] => []
  | (key, v) :: members => key ++ v.chars ++ membersChars members

end

def isWideEnd (c : ℕ) : Bool := isLineEnd c && c ≠ 10 && c ≠ 13

inductive Mode where
  | outside
  | inside
  | escape
deriving DecidableEq

def Mode.next : Mode → ℕ → Option Mode
  | .outside, c =>
    if c = 34 then some .inside else if c = 92 ∨ isWideEnd c then none else some .outside
  | .inside, c => if c = 34 then some .outside else if c = 92 then some .escape else some .inside
  | .escape, c => if isWideEnd c then none else some .inside

def scan (m : Mode) (t : List ℕ) : Option Mode := t.foldlM Mode.next m

variable {c : ℕ} {m : Mode} {s t u r w w' chars chars' : List ℕ}

theorem scan_append (m : Mode) (t u : List ℕ) :
    scan m (t ++ u) = (scan m t).bind fun m => scan m u := List.foldlM_append

theorem scan_cons (m : Mode) (c : ℕ) (t : List ℕ) :
    scan m (c :: t) = (m.next c).bind fun m => scan m t := List.foldlM_cons

/-- A letter of neither kind keeps a scan in its strings or outside of them. -/
def IsPlain (c : ℕ) : Prop := c ≠ 34 ∧ c ≠ 92 ∧ isWideEnd c = false

theorem scan_plain (hm : m ≠ .escape) (h : ∀ c ∈ t, IsPlain c) : scan m t = some m := by
  induction t with
  | nil => rfl
  | cons c t ih =>
    obtain ⟨⟨hquote, hslash, hwide⟩, ht⟩ := List.forall_mem_cons.mp h
    have hnext : m.next c = some m := by
      cases m with
      | outside => simp [Mode.next, hquote, hslash, hwide]
      | inside => simp [Mode.next, hquote, hslash]
      | escape => exact absurd rfl hm
    rw [scan_cons, hnext, Option.bind_some, ih ht]

/-- A piece of a JSON text and the letters its strings are read as. -/
structure Scanned (w chars : List ℕ) : Prop where
  scan : scan .outside w = some .outside
  kept : ∀ c ∈ w, isWideEnd c → c ∈ chars
  raw : 92 ∉ w → ∀ c ∈ chars, isLineEnd c → c ∈ w

theorem Scanned.append (h : Scanned w chars) (h' : Scanned w' chars') :
    Scanned (w ++ w') (chars ++ chars') where
  scan := by rw [scan_append, h.scan, Option.bind_some, h'.scan]
  kept c hc hwide := by
    rcases List.mem_append.mp hc with hc | hc
    · exact List.mem_append_left _ (h.kept c hc hwide)
    · exact List.mem_append_right _ (h'.kept c hc hwide)
  raw hslash c hc hend := by
    obtain ⟨hw, hw'⟩ := not_or.mp (fun hor => hslash (List.mem_append.mpr hor))
    rcases List.mem_append.mp hc with hc | hc
    · exact List.mem_append_left _ (h.raw hw c hc hend)
    · exact List.mem_append_right _ (h'.raw hw' c hc hend)

theorem Scanned.of_plain (h : ∀ c ∈ w, IsPlain c) : Scanned w [] where
  scan := scan_plain (by decide) h
  kept c hc hwide := by
    rw [(h c hc).2.2] at hwide
    cases hwide
  raw _ c hc := by cases hc

theorem Scanned.letter (hc : IsPlain c) : Scanned [c] [] :=
  Scanned.of_plain fun _ h => List.mem_singleton.mp h ▸ hc

theorem isPlain_ws (h : isWs c = true) : IsPlain c := by
  simp only [isWs, Bool.or_eq_true, decide_eq_true_eq] at h
  rcases h with ((rfl | rfl) | rfl) | rfl <;> exact ⟨by decide, by decide, by decide⟩

theorem skipWs_scanned (t : List ℕ) : ∃ w, t = w ++ skipWs t ∧ Scanned w [] :=
  ⟨t.takeWhile isWs, List.takeWhile_append_dropWhile.symm,
    Scanned.of_plain fun _ hc => isPlain_ws (List.mem_takeWhile_imp hc)⟩

theorem isPlain_numberChar (h : isNumberChar c = true) : IsPlain c := by
  simp only [isNumberChar, isDigit, Bool.or_eq_true, Bool.and_eq_true, decide_eq_true_eq] at h
  rcases h with ⟨hlow, hhigh⟩ | h
  · refine ⟨by omega, by omega, ?_⟩
    simp only [isWideEnd, isLineEnd, Bool.and_eq_false_iff, decide_eq_false_iff_not,
      List.mem_cons, List.not_mem_nil, or_false]
    omega
  · have hchars : text "+-.eE" = [43, 45, 46, 101, 69] := by decide
    rw [hchars] at h
    simp only [List.mem_cons, List.not_mem_nil, or_false] at h
    rcases h with rfl | rfl | rfl | rfl | rfl <;> exact ⟨by decide, by decide, by decide⟩

theorem isPlain_hexValue {n : ℕ} (h : hexValue c = some n) : IsPlain c := by
  simp only [hexValue, isDigit, Bool.and_eq_true, decide_eq_true_eq] at h
  have hrange : 48 ≤ c ∧ c ≤ 102 ∧ c ≠ 92 := by
    split_ifs at h <;> omega
  refine ⟨by omega, hrange.2.2, ?_⟩
  simp only [isWideEnd, isLineEnd, Bool.and_eq_false_iff, decide_eq_false_iff_not,
    List.mem_cons, List.not_mem_nil, or_false]
  omega

variable {j : Value} {unit : ℕ} {rest : List ℕ}

theorem isPlain_hexEscape {i j k l : ℕ} (h : hexEscape i j k l = some unit) :
    ∀ c ∈ [i, j, k, l], IsPlain c := by
  obtain ⟨a, hi, h⟩ := Option.bind_eq_some_iff.mp h
  obtain ⟨b, hj, h⟩ := Option.bind_eq_some_iff.mp h
  obtain ⟨c', hk, h⟩ := Option.bind_eq_some_iff.mp h
  obtain ⟨d, hl, -⟩ := Option.map_eq_some_iff.mp h
  intro c hc
  simp only [List.mem_cons, List.not_mem_nil, or_false] at hc
  rcases hc with rfl | rfl | rfl | rfl
  · exact isPlain_hexValue hi
  · exact isPlain_hexValue hj
  · exact isPlain_hexValue hk
  · exact isPlain_hexValue hl

theorem not_wide_simpleEscape {e : ℕ} (h : simpleEscape e = some unit) :
    isWideEnd e = false := by
  have hrange : 34 ≤ e ∧ e ≤ 116 := by
    unfold simpleEscape at h
    split_ifs at h <;> omega
  simp only [isWideEnd, isLineEnd, Bool.and_eq_false_iff, decide_eq_false_iff_not,
    List.mem_cons, List.not_mem_nil, or_false]
  omega

/-- The letters of a string up to its closing quote, and what they are read as. -/
structure ScannedUnits (w chars : List ℕ) : Prop where
  scan : scan .inside w = some .outside
  kept : ∀ c ∈ w, isWideEnd c → c ∈ chars
  raw : 92 ∉ w → ∀ c ∈ chars, isLineEnd c → c ∈ w

theorem ScannedUnits.escape {e : ℕ} (digits : List ℕ) (he : isWideEnd e = false)
    (hdigits : ∀ c ∈ digits, IsPlain c) (h : ScannedUnits w chars) :
    ScannedUnits (92 :: e :: digits ++ w) (unit :: chars) where
  scan := by
    have hnext : Mode.next .escape e = some .inside := by simp [Mode.next, he]
    rw [List.cons_append, List.cons_append, scan_cons, Mode.next, if_neg (by decide), if_pos rfl,
      Option.bind_some, scan_cons, hnext, Option.bind_some, scan_append,
      scan_plain (by decide) hdigits, Option.bind_some, h.scan]
  kept c hc hwide := by
    simp only [List.cons_append, List.mem_cons, List.mem_append] at hc
    rcases hc with rfl | rfl | hc | hc
    · cases hwide
    · rw [he] at hwide
      cases hwide
    · rw [(hdigits c hc).2.2] at hwide
      cases hwide
    · exact List.mem_cons_of_mem _ (h.kept c hc hwide)
  raw hslash := absurd List.mem_cons_self hslash

theorem parseUnits_scanned (h : parseUnits u = some (s, r)) :
    ∃ w, u = w ++ r ∧ ScannedUnits w s := by
  fun_induction parseUnits u generalizing s r with
  | case1 => cases h
  | case2 rest =>
    cases h
    refine ⟨[34], rfl, rfl, ?_, ?_⟩
    · intro c hc hwide
      rw [List.mem_singleton.mp hc] at hwide
      cases hwide
    · intro _ c hc
      cases hc
  | case3 => cases h
  | case4 i j k l rest _ ih =>
    obtain ⟨unit, hunit, hmap⟩ := Option.bind_eq_some_iff.mp h
    obtain ⟨⟨s', r'⟩, hrest, heq⟩ := Option.map_eq_some_iff.mp hmap
    cases heq
    obtain ⟨w, rfl, hw⟩ := ih hrest
    exact ⟨_, rfl, hw.escape [i, j, k, l] (by decide) (isPlain_hexEscape hunit)⟩
  | case5 => cases h
  | case6 e rest hne _ ih =>
    obtain ⟨unit, hunit, hmap⟩ := Option.bind_eq_some_iff.mp h
    obtain ⟨⟨s', r'⟩, hrest, heq⟩ := Option.map_eq_some_iff.mp hmap
    cases heq
    obtain ⟨w, rfl, hw⟩ := ih hrest
    exact ⟨_, rfl, hw.escape [] (not_wide_simpleEscape hunit) (fun c hc => by cases hc)⟩
  | case7 => cases h
  | case8 c rest hquote hslash hlow ih =>
    obtain ⟨⟨s', r'⟩, hrest, heq⟩ := Option.map_eq_some_iff.mp h
    cases heq
    obtain ⟨w, rfl, hw⟩ := ih hrest
    refine ⟨c :: w, rfl, ?_, ?_, ?_⟩
    · rw [scan_cons, Mode.next, if_neg hquote, if_neg hslash, Option.bind_some, hw.scan]
    · intro c' hc' hwide
      rcases List.mem_cons.mp hc' with rfl | hc'
      · exact List.mem_cons_self
      · exact List.mem_cons_of_mem _ (hw.kept c' hc' hwide)
    · intro hnone c' hc' hend
      rcases List.mem_cons.mp hc' with rfl | hc'
      · exact List.mem_cons_self
      · exact List.mem_cons_of_mem _
          (hw.raw (fun hmem => hnone (List.mem_cons_of_mem _ hmem)) c' hc' hend)

theorem mem_joinSurrogates (hc : isLineEnd c = true) : c ∈ joinSurrogates s ↔ c ∈ s := by
  have hsmall : c < 0xD800 := by
    simp only [isLineEnd, decide_eq_true_eq, List.mem_cons, List.not_mem_nil, or_false] at hc
    omega
  fun_induction joinSurrogates s with
  | case1 => rfl
  | case2 => rfl
  | case3 hi lo rest hpair ih =>
    simp only [List.mem_cons, ih]
    constructor
    · rintro (h | h)
      · omega
      · exact Or.inr (Or.inr h)
    · rintro (h | h | h)
      · omega
      · omega
      · exact Or.inr h
  | case4 hi lo rest hpair ih => simp only [List.mem_cons, ih]

theorem parseString_scanned (h : parseString u = some (s, r)) :
    ∃ w, u = w ++ r ∧ Scanned (34 :: w) s := by
  obtain ⟨⟨units, rest⟩, hunits, heq⟩ := Option.map_eq_some_iff.mp h
  cases heq
  obtain ⟨w, rfl, hw⟩ := parseUnits_scanned hunits
  refine ⟨w, rfl, ?_, ?_, ?_⟩
  · rw [scan_cons, Mode.next, if_pos rfl, Option.bind_some, hw.scan]
  · intro c hc hwide
    rcases List.mem_cons.mp hc with rfl | hc
    · cases hwide
    · have hend : isLineEnd c = true := by
        simp only [isWideEnd, Bool.and_eq_true] at hwide
        exact hwide.1.1
      exact (mem_joinSurrogates hend).mpr (hw.kept c hc hwide)
  · intro hslash c hc hend
    have hmem := (mem_joinSurrogates hend).mp hc
    exact List.mem_cons_of_mem _
      (hw.raw (fun h => hslash (List.mem_cons_of_mem _ h)) c hmem hend)

theorem isPlain_constants : ∀ c ∈ constants, ∀ x ∈ c.1, IsPlain x := by
  intro c hc
  simp only [constants, List.mem_cons, List.not_mem_nil, or_false] at hc
  have hletters : ∀ {t : List ℕ}, (t.all fun x => x ≠ 34 && x ≠ 92 && !isWideEnd x) = true →
      ∀ x ∈ t, IsPlain x := by
    intro t ht x hx
    have hall := List.all_eq_true.mp ht x hx
    simp only [Bool.and_eq_true, decide_eq_true_eq, Bool.not_eq_true'] at hall
    exact ⟨hall.1.1, hall.1.2, hall.2⟩
  rcases hc with rfl | rfl | rfl | rfl | rfl | rfl <;> exact hletters (by decide)

theorem parseAtom_scanned (h : (parseNumber u).or (parseConstant u) = some (j, r)) :
    ∃ w, u = w ++ r ∧ Scanned w j.chars := by
  rcases Option.or_eq_some_iff.mp h with hnumber | ⟨-, hconstant⟩
  · unfold parseNumber at hnumber
    split_ifs at hnumber
    cases hnumber
    exact ⟨_, List.takeWhile_append_dropWhile.symm,
      Scanned.of_plain fun _ hc => isPlain_numberChar (List.mem_takeWhile_imp hc)⟩
  · obtain ⟨c, hc, rfl, rfl⟩ := parseConstant_cases hconstant
    have hchars : c.2.chars = [] := by
      simp only [constants, List.mem_cons, List.not_mem_nil, or_false] at hc
      rcases hc with rfl | rfl | rfl | rfl | rfl | rfl <;> rfl
    refine ⟨c.1, rfl, ?_⟩
    rw [hchars]
    exact Scanned.of_plain (isPlain_constants c hc)

theorem Scanned.then_letter (h : Scanned w chars) (hc : IsPlain c)
    (hrest : (skipWs rest).head? = some c) :
    ∃ w', w ++ rest = w' ++ (skipWs rest).drop 1 ∧ Scanned w' chars := by
  obtain ⟨ws, hws, hscanned⟩ := skipWs_scanned rest
  refine ⟨w ++ (ws ++ [c]), ?_, ?_⟩
  · rw [List.append_assoc, List.append_assoc, List.singleton_append, ← head?_eq_some hrest, ← hws]
  · have hletter : Scanned [c] [] := Scanned.of_plain (by simpa using hc)
    have hall := h.append (hscanned.append hletter)
    rwa [List.append_nil, List.append_nil] at hall

theorem Scanned.then_skipped (h : Scanned w chars) {tail : List ℕ}
    (hrest : ∃ w', skipWs rest = w' ++ tail ∧ Scanned w' chars') :
    ∃ w', w ++ rest = w' ++ tail ∧ Scanned w' (chars ++ chars') := by
  obtain ⟨ws, hws, hscanned⟩ := skipWs_scanned rest
  obtain ⟨w', hw', hpiece⟩ := hrest
  refine ⟨w ++ (ws ++ w'), ?_, ?_⟩
  · rw [List.append_assoc, List.append_assoc, ← hw', ← hws]
  · exact h.append (hscanned.append hpiece)

theorem parse_scanned (n : ℕ) :
    (∀ (u r : List ℕ) (j : Value), parseValue n u = some (j, r) →
        ∃ w, u = w ++ r ∧ Scanned w j.chars) ∧
      (∀ (u r : List ℕ) (ms : List (List ℕ × Value)), parseMembers n u = some (ms, r) →
        ∃ w, u = w ++ r ∧ Scanned w (membersChars ms)) ∧
      (∀ (u r : List ℕ) (js : List Value), parseItems n u = some (js, r) →
        ∃ w, u = w ++ r ∧ Scanned w (itemsChars js)) := by
  induction n with
  | zero =>
    refine ⟨?_, ?_, ?_⟩
    · intro u r j h
      cases h
    · intro u r ms h
      cases h
    · intro u r js h
      cases h
  | succ n ih =>
    obtain ⟨ihValue, ihMembers, ihItems⟩ := ih
    refine ⟨?_, ?_, ?_⟩
    · intro u r j h
      cases u with
      | nil => cases h
      | cons c rest =>
        rw [parseValue] at h
        by_cases hquote : c = 34
        · subst hquote
          obtain ⟨⟨s, r'⟩, hs, heq⟩ := Option.map_eq_some_iff.mp h
          cases heq
          obtain ⟨w, rfl, hw⟩ := parseString_scanned hs
          exact ⟨34 :: w, rfl, hw⟩
        rw [if_neg hquote] at h
        by_cases hbrace : c = 123
        · rw [if_pos hbrace] at h
          subst hbrace
          have hopen : Scanned [123] [] := Scanned.letter ⟨by decide, by decide, by decide⟩
          split_ifs at h with hempty
          · cases h
            exact hopen.then_letter ⟨by decide, by decide, by decide⟩ hempty
          · obtain ⟨⟨ms, r'⟩, hms, heq⟩ := Option.map_eq_some_iff.mp h
            cases heq
            exact hopen.then_skipped (ihMembers _ _ _ hms)
        rw [if_neg hbrace] at h
        by_cases hbracket : c = 91
        · rw [if_pos hbracket] at h
          subst hbracket
          have hopen : Scanned [91] [] := Scanned.letter ⟨by decide, by decide, by decide⟩
          split_ifs at h with hempty
          · cases h
            exact hopen.then_letter ⟨by decide, by decide, by decide⟩ hempty
          · obtain ⟨⟨js, r'⟩, hjs, heq⟩ := Option.map_eq_some_iff.mp h
            cases heq
            exact hopen.then_skipped (ihItems _ _ _ hjs)
        rw [if_neg hbracket] at h
        exact parseAtom_scanned h
    · intro u r ms h
      rw [parseMembers] at h
      split_ifs at h with hquote
      obtain ⟨⟨key, afterKey⟩, hkey, h⟩ := Option.bind_eq_some_iff.mp h
      split_ifs at h with hcolon
      obtain ⟨⟨value, rest⟩, hvalue, h⟩ := Option.bind_eq_some_iff.mp h
      dsimp only at h hcolon hvalue
      -- the key with its colon, then the value
      obtain ⟨w, hw, hkeyScanned⟩ := parseString_scanned hkey
      obtain ⟨w₁, hw₁, hcolonScanned⟩ :=
        hkeyScanned.then_letter ⟨by decide, by decide, by decide⟩ hcolon
      obtain ⟨w₂, hw₂, hmember⟩ := hcolonScanned.then_skipped (ihValue _ _ _ hvalue)
      have hu : u = w₂ ++ rest := by
        rw [head?_eq_some hquote, hw, ← List.cons_append, hw₁, hw₂]
      split_ifs at h with hcomma hend
      · obtain ⟨⟨ms', r'⟩, hms, heq⟩ := Option.map_eq_some_iff.mp h
        cases heq
        obtain ⟨w₃, hw₃, hmore⟩ := hmember.then_letter ⟨by decide, by decide, by decide⟩ hcomma
        obtain ⟨w₄, hw₄, hall⟩ := hmore.then_skipped (ihMembers _ _ _ hms)
        exact ⟨w₄, by rw [hu, hw₃, hw₄], hall⟩
      · cases h
        obtain ⟨w₃, hw₃, hall⟩ := hmember.then_letter ⟨by decide, by decide, by decide⟩ hend
        refine ⟨w₃, by rw [hu, hw₃], ?_⟩
        rw [membersChars, membersChars, List.append_nil]
        exact hall
    · intro u r js h
      obtain ⟨⟨value, rest⟩, hvalue, h⟩ := Option.bind_eq_some_iff.mp h
      dsimp only at h
      obtain ⟨w, hw, hitem⟩ := ihValue _ _ _ hvalue
      split_ifs at h with hcomma hend
      · obtain ⟨⟨js', r'⟩, hjs, heq⟩ := Option.map_eq_some_iff.mp h
        cases heq
        obtain ⟨w₁, hw₁, hmore⟩ := hitem.then_letter ⟨by decide, by decide, by decide⟩ hcomma
        obtain ⟨w₂, hw₂, hall⟩ := hmore.then_skipped (ihItems _ _ _ hjs)
        exact ⟨w₂, by rw [hw, hw₁, hw₂], hall⟩
      · cases h
        obtain ⟨w₁, hw₁, hall⟩ := hitem.then_letter ⟨by decide, by decide, by decide⟩ hend
        refine ⟨w₁, by rw [hw, hw₁], ?_⟩
        rw [itemsChars, itemsChars, List.append_nil]
        exact hall

theorem loads_scanned (h : loads t = some j) : Scanned t j.chars := by
  unfold loads at h
  split_ifs at h
  obtain ⟨⟨j', r⟩, hvalue, hrest⟩ := Option.bind_eq_some_iff.mp h
  split_ifs at hrest with hnil
  cases hrest
  obtain ⟨before, hbefore, hfront⟩ := skipWs_scanned t
  obtain ⟨w, hw, hscanned⟩ := (parse_scanned _).1 _ _ _ hvalue
  obtain ⟨after, hafter, hbehind⟩ := skipWs_scanned r
  have hall := (hfront.append hscanned).append hbehind
  have ht : t = before ++ w ++ after := by
    rw [hbefore, hw, hafter, hnil]
    simp
  rwa [← ht, List.append_nil] at hall

/-- From the inside of a string on, a text that can also be read from the outside has no
backslash: wherever one reading is in a string, the other is not. -/
theorem no_backslash (hin : (scan .inside t).isSome) (hout : (scan .outside t).isSome) :
    92 ∉ t := by
  induction t with
  | nil => exact List.not_mem_nil
  | cons c t ih =>
    rw [scan_cons] at hin hout
    rw [Mode.next.eq_2] at hin
    rw [Mode.next.eq_1] at hout
    by_cases hquote : c = 34
    · rw [if_pos hquote, Option.bind_some] at hin hout
      rw [List.mem_cons]
      rintro (h | h)
      · omega
      · exact ih hout hin h
    · rw [if_neg hquote] at hin hout
      by_cases hslash : c = 92
      · rw [if_pos (Or.inl hslash)] at hout
        cases hout
      · rw [if_neg hslash, Option.bind_some] at hin
        split_ifs at hout
        · cases hout
        · rw [List.mem_cons]
          rintro (h | h)
          · exact hslash h.symm
          · exact ih hin hout h

def setKey (key : List ℕ) (v : Value) : List (List ℕ × Value) → List (List ℕ × Value)
  | [] => [(key, v)]
  | m :: ms => if m.1 = key then (m.1, v) :: ms else m :: setKey key v ms

mutual

def Value.asDict : Value → Value
  | .arr items => .arr (itemsDict items)
  | .obj members => .obj (membersDict members [])
  | v => v

def itemsDict : List Value → List Value
  | [] => []
  | v :: items => v.asDict :: itemsDict items

def membersDict : List (List ℕ × Value) → List (List ℕ × Value) → List (List ℕ × Value)
  | [], dict => dict
  | (key, v) :: members, dict => membersDict members (setKey key v.asDict dict)

end

theorem mem_membersChars_setKey {key : List ℕ} {v : Value} {ms : List (List ℕ × Value)}
    (h : c ∈ membersChars (setKey key v ms)) : (c ∈ key ∨ c ∈ v.chars) ∨ c ∈ membersChars ms := by
  induction ms with
  | nil => simpa [setKey, membersChars] using h
  | cons m ms ih =>
    rw [setKey] at h
    split_ifs at h with hkey
    · simp only [membersChars, List.mem_append] at h ⊢
      tauto
    · simp only [membersChars, List.mem_append] at h ⊢
      tauto

mutual

theorem Value.mem_chars_of_asDict : (v : Value) → c ∈ v.asDict.chars → c ∈ v.chars
  | .null, h | .bool _, h | .num _, h | .str _, h => h
  | .arr items, h => mem_itemsChars_of_dict items h
  | .obj members, h => (mem_membersChars_of_dict members [] h).resolve_right List.not_mem_nil

theorem mem_itemsChars_of_dict : (items : List Value) → c ∈ itemsChars (itemsDict items) →
    c ∈ itemsChars items
  | [], h => h
  | v :: items, h => by
    rw [itemsDict, itemsChars, List.mem_append] at h
    rw [itemsChars, List.mem_append]
    exact h.imp v.mem_chars_of_asDict (mem_itemsChars_of_dict items)

theorem mem_membersChars_of_dict : (members dict : List (List ℕ × Value)) →
    c ∈ membersChars (membersDict members dict) → c ∈ membersChars members ∨ c ∈ membersChars dict
  | [], _, h => Or.inr h
  | (key, v) :: members, dict, h => by
    rw [membersChars, List.mem_append, List.mem_append]
    rcases mem_membersChars_of_dict members _ h with h | h
    · exact Or.inl (Or.inr h)
    · rcases mem_membersChars_setKey h with (h | h) | h
      · exact Or.inl (Or.inl (Or.inl h))
      · exact Or.inl (Or.inl (Or.inr (v.mem_chars_of_asDict h)))
      · exact Or.inr h

end

end JsonText

import WittyService.Utf8Text

/-! JSON as text: `json.loads` of any text, and `json.dumps(..., ensure_ascii=False)` of strings
and objects. A number keeps the characters it was written with. -/
namespace JsonText

open Utf8Text

inductive Value where
  | null
  | bool (b : Bool)
  | num (literal : List ℕ)
  | str (s : List ℕ)
  | arr (items : List Value)
  | obj (members : List (List ℕ × Value))

def isWs (c : ℕ) : Bool := c = 32 || c = 9 || c = 10 || c = 13

def skipWs (t : List ℕ) : List ℕ := t.dropWhile isWs

def isDigit (c : ℕ) : Bool := 48 ≤ c && c ≤ 57

def isNumberChar (c : ℕ) : Bool := isDigit c || c ∈ text "+-.eE"

/-- `[eE][-+]?\d+`, or nothing. -/
def isExponent : List ℕ → Bool
  | [] => true
  | e :: t =>
    let digits := match t with
      | sign :: rest => if sign ∈ text "+-" then rest else t
      | [] => []
    e ∈ text "eE" && digits ≠ [] && digits.all isDigit

/-- `(\.\d+)?` and the exponent. -/
def isFraction : List ℕ → Bool
  | [] => true
  | c :: t =>
    if c = 46 then t.takeWhile isDigit ≠ [] && isExponent (t.dropWhile isDigit)
    else isExponent (c :: t)

/-- `-?(0|[1-9]\d*)(\.\d+)?([eE][-+]?\d+)?`. -/
def isNumber (literal : List ℕ) : Bool :=
  let unsigned := if literal.head? = some 45 then literal.drop 1 else literal
  match unsigned with
  | [] => false
  | c :: t =>
    if c = 48 then isFraction t
    else isDigit c && isFraction (t.dropWhile isDigit)

def hexValue (c : ℕ) : Option ℕ :=
  if isDigit c then some (c - 48)
  else if 97 ≤ c ∧ c ≤ 102 then some (c - 87)
  else if 65 ≤ c ∧ c ≤ 70 then some (c - 55)
  else none

def simpleEscape (c : ℕ) : Option ℕ :=
  if c = 34 ∨ c = 92 ∨ c = 47 then some c
  else if c = 98 then some 8
  else if c = 102 then some 12
  else if c = 110 then some 10
  else if c = 114 then some 13
  else if c = 116 then some 9
  else none

def hexEscape (a b c d : ℕ) : Option ℕ :=
  (hexValue a).bind fun a => (hexValue b).bind fun b => (hexValue c).bind fun c =>
    (hexValue d).map fun d => ((a * 16 + b) * 16 + c) * 16 + d

/-- The characters of a string up to its closing quote, `\uXXXX` taken for itself. -/
def parseUnits : List ℕ → Option (List ℕ × List ℕ)
  | [] => none
  | c :: rest =>
    if c = 34 then some ([], rest)
    else if c = 92 then
      match rest with
      | [] => none
      | e :: rest =>
        if e = 117 then
          match rest with
          | h :: i :: j :: k :: rest =>
            (hexEscape h i j k).bind fun unit =>
              (parseUnits rest).map fun r => (unit :: r.1, r.2)
          | _ => none
        else (simpleEscape e).bind fun unit => (parseUnits rest).map fun r => (unit :: r.1, r.2)
    else if c < 32 then none
    else (parseUnits rest).map fun r => (c :: r.1, r.2)

def joinSurrogates : List ℕ → List ℕ
  | [] => []
  | [c] => [c]
  | h :: l :: rest =>
    if (0xD800 ≤ h ∧ h < 0xDC00) ∧ 0xDC00 ≤ l ∧ l < 0xE000 then
      (0x10000 + (h - 0xD800) * 0x400 + (l - 0xDC00)) :: joinSurrogates rest
    else h :: joinSurrogates (l :: rest)

def parseString (t : List ℕ) : Option (List ℕ × List ℕ) :=
  (parseUnits t).map fun r => (joinSurrogates r.1, r.2)

def constants : List (List ℕ × Value) := [
  (text "null", .null),
  (text "true", .bool true),
  (text "false", .bool false),
  (text "NaN", .num (text "NaN")),
  (text "Infinity", .num (text "Infinity")),
  (text "-Infinity", .num (text "-Infinity"))]

def parseConstant (t : List ℕ) : Option (Value × List ℕ) :=
  (constants.find? fun c => c.1.isPrefixOf t).map fun c => (c.2, t.drop c.1.length)

def parseNumber (t : List ℕ) : Option (Value × List ℕ) :=
  if isNumber (t.takeWhile isNumberChar) then
    some (.num (t.takeWhile isNumberChar), t.dropWhile isNumberChar)
  else none

mutual

def parseValue : ℕ → List ℕ → Option (Value × List ℕ)
  | 0, _ => none
  | n + 1, t =>
    match t with
    | [] => none
    | c :: rest =>
      if c = 34 then (parseString rest).map fun r => (.str r.1, r.2)
      else if c = 123 then
        if (skipWs rest).head? = some 125 then some (.obj [], (skipWs rest).drop 1)
        else (parseMembers n (skipWs rest)).map fun r => (.obj r.1, r.2)
      else if c = 91 then
        if (skipWs rest).head? = some 93 then some (.arr [], (skipWs rest).drop 1)
        else (parseItems n (skipWs rest)).map fun r => (.arr r.1, r.2)
      else (parseNumber (c :: rest)).or (parseConstant (c :: rest))

def parseMembers : ℕ → List ℕ → Option (List (List ℕ × Value) × List ℕ)
  | 0, _ => none
  | n + 1, t =>
    if t.head? = some 34 then
      (parseString (t.drop 1)).bind fun key =>
        if (skipWs key.2).head? = some 58 then
          (parseValue n (skipWs ((skipWs key.2).drop 1))).bind fun value =>
            let rest := skipWs value.2
            if rest.head? = some 44 then
              (parseMembers n (skipWs (rest.drop 1))).map fun r => ((key.1, value.1) :: r.1, r.2)
            else if rest.head? = some 125 then some ([(key.1, value.1)], rest.drop 1)
            else none
        else none
    else none

def parseItems : ℕ → List ℕ → Option (List Value × List ℕ)
  | 0, _ => none
  | n + 1, t =>
    (parseValue n t).bind fun value =>
      let rest := skipWs value.2
      if rest.head? = some 44 then
        (parseItems n (skipWs (rest.drop 1))).map fun r => (value.1 :: r.1, r.2)
      else if rest.head? = some 93 then some ([value.1], rest.drop 1)
      else none

end

/-- `json.loads`, none for a `JSONDecodeError`. Every call takes a character, so the length of
the text is fuel enough. -/
def loads (t : List ℕ) : Option Value :=
  if t.head? = some 0xFEFF then none
  else
    (parseValue (t.length + 1) (skipWs t)).bind fun r =>
      if skipWs r.2 = [] then some r.1 else none

def hexDigit (d : ℕ) : ℕ := if d < 10 then 48 + d else 87 + d

def escapeOne (c : ℕ) : List ℕ :=
  if c = 34 then [92, 34]
  else if c = 92 then [92, 92]
  else if c = 8 then [92, 98]
  else if c = 12 then [92, 102]
  else if c = 10 then [92, 110]
  else if c = 13 then [92, 114]
  else if c = 9 then [92, 116]
  else if c < 32 then [92, 117, 48, 48, hexDigit (c / 16), hexDigit (c % 16)]
  else [c]

def renderString (s : List ℕ) : List ℕ := 34 :: s.flatMap escapeOne ++ [34]

def renderObject (members : List (List ℕ × List ℕ)) : List ℕ :=
  123 :: (text ", ").intercalate
    (members.map fun m => renderString m.1 ++ text ": " ++ m.2) ++ [125]

theorem lt_hexDigit (d : ℕ) : 13 < hexDigit d := by
  unfold hexDigit
  split_ifs <;> omega

theorem escapeOne_oneLine (c : ℕ) : ∀ x ∈ escapeOne c, x ≠ 10 ∧ x ≠ 13 := by
  unfold escapeOne
  split_ifs with hquote hslash hback hfeed hline hreturn htab hlow
  · decide
  · decide
  · decide
  · decide
  · decide
  · decide
  · decide
  · have hhigh := lt_hexDigit (c / 16)
    have hlast := lt_hexDigit (c % 16)
    intro x hx
    simp only [List.mem_cons, List.not_mem_nil, or_false] at hx
    omega
  · intro x hx
    rw [List.mem_singleton.mp hx]
    exact ⟨hline, hreturn⟩

theorem renderString_oneLine (s : List ℕ) : ∀ x ∈ renderString s, x ≠ 10 ∧ x ≠ 13 := by
  intro x hx
  simp only [renderString, List.cons_append, List.mem_cons, List.mem_append, List.mem_flatMap,
    List.not_mem_nil, or_false] at hx
  rcases hx with rfl | ⟨c, -, hx⟩ | rfl
  · decide
  · exact escapeOne_oneLine c x hx
  · decide

variable {u r s t : List ℕ} {c n fuel : ℕ} {j : Value} {m : Member}

theorem skipWs_append (h : skipWs u = c :: r) (v : List ℕ) :
    skipWs (u ++ v) = c :: (r ++ v) := by
  unfold skipWs at h ⊢
  rw [List.dropWhile_append, h]
  rfl

theorem parseUnits_quote (rest : List ℕ) : parseUnits (34 :: rest) = some ([], rest) := by
  rw [parseUnits.eq_def]
  rfl

theorem parseUnits_hex (h i j k : ℕ) (rest : List ℕ) :
    parseUnits (92 :: 117 :: h :: i :: j :: k :: rest) = (hexEscape h i j k).bind fun unit =>
      (parseUnits rest).map fun r => (unit :: r.1, r.2) := by
  rw [parseUnits.eq_def]
  rfl

theorem parseUnits_escape {e : ℕ} (he : e ≠ 117) (rest : List ℕ) :
    parseUnits (92 :: e :: rest) = (simpleEscape e).bind fun unit =>
      (parseUnits rest).map fun r => (unit :: r.1, r.2) := by
  rw [parseUnits.eq_def]
  dsimp only
  rw [if_neg (by decide), if_pos rfl, if_neg he]

theorem parseUnits_plain (hquote : c ≠ 34) (hslash : c ≠ 92) (hlow : ¬ c < 32) (rest : List ℕ) :
    parseUnits (c :: rest) = (parseUnits rest).map fun r => (c :: r.1, r.2) := by
  rw [parseUnits.eq_def]
  dsimp only
  rw [if_neg hquote, if_neg hslash, if_neg hlow]

theorem parseUnits_append (h : parseUnits u = some (s, r)) (v : List ℕ) :
    parseUnits (u ++ v) = some (s, r ++ v) := by
  fun_induction parseUnits u generalizing s r with
  | case1 => cases h
  | case2 rest =>
    cases h
    exact parseUnits_quote _
  | case3 => cases h
  | case4 h' i j k rest _ ih =>
    obtain ⟨unit, hunit, hmap⟩ := Option.bind_eq_some_iff.mp h
    obtain ⟨⟨s', r'⟩, hrest, heq⟩ := Option.map_eq_some_iff.mp hmap
    cases heq
    simp only [List.cons_append]
    rw [parseUnits_hex, hunit, ih hrest]
    rfl
  | case5 => cases h
  | case6 e rest hne _ ih =>
    obtain ⟨unit, hunit, hmap⟩ := Option.bind_eq_some_iff.mp h
    obtain ⟨⟨s', r'⟩, hrest, heq⟩ := Option.map_eq_some_iff.mp hmap
    cases heq
    simp only [List.cons_append]
    rw [parseUnits_escape hne, hunit, ih hrest]
    rfl
  | case7 => cases h
  | case8 c rest hquote hslash hlow ih =>
    obtain ⟨⟨s', r'⟩, hrest, heq⟩ := Option.map_eq_some_iff.mp h
    cases heq
    rw [List.cons_append, parseUnits_plain hquote hslash hlow, ih hrest]
    rfl

theorem parseString_append (h : parseString u = some (s, r)) (v : List ℕ) :
    parseString (u ++ v) = some (s, r ++ v) := by
  obtain ⟨⟨units, rest⟩, hunits, heq⟩ := Option.map_eq_some_iff.mp h
  cases heq
  rw [parseString, parseUnits_append hunits]
  rfl

theorem parseNumber_append (h : parseNumber u = some (j, r))
    (hr : r ≠ []) (v : List ℕ) : parseNumber (u ++ v) = some (j, r ++ v) := by
  unfold parseNumber at h ⊢
  split_ifs at h with hnumber
  cases h
  obtain ⟨c, rest, hrest⟩ := List.exists_cons_of_ne_nil hr
  have hshort : (u.takeWhile isNumberChar).length ≠ u.length := by
    intro hall
    have hlength := congrArg List.length (List.takeWhile_append_dropWhile
      (p := isNumberChar) (l := u))
    rw [List.length_append, hall, hrest, List.length_cons] at hlength
    omega
  have htake : (u ++ v).takeWhile isNumberChar = u.takeWhile isNumberChar := by
    rw [List.takeWhile_append, if_neg hshort]
  have hdrop : (u ++ v).dropWhile isNumberChar = u.dropWhile isNumberChar ++ v := by
    rw [List.dropWhile_append, hrest]
    rfl
  rw [htake, hdrop, if_pos hnumber]

theorem constants_apart :
    constants.Pairwise fun c d => ¬ c.1 <+: d.1 ∧ ¬ d.1 <+: c.1 := by decide

theorem find?_of_apart {α : Type*} {R : α → α → Prop} {p : α → Bool} {l : List α} {a : α}
    (hl : l.Pairwise R) (hR : ∀ b c, R b c → p b = true → p c = true → False) (ha : a ∈ l)
    (hp : p a = true) : l.find? p = some a := by
  induction l with
  | nil => cases ha
  | cons b l ih =>
    obtain ⟨hb, hl⟩ := List.pairwise_cons.mp hl
    rcases List.mem_cons.mp ha with rfl | ha
    · exact List.find?_cons_of_pos hp
    · rw [List.find?_cons_of_neg, ih hl ha]
      exact fun hpb => hR b a (hb a ha) hpb hp

theorem parseConstant_of_prefix {c : List ℕ × Value} (hc : c ∈ constants) (t : List ℕ) :
    parseConstant (c.1 ++ t) = some (c.2, t) := by
  have hfind : (constants.find? fun d => d.1.isPrefixOf (c.1 ++ t)) = some c := by
    apply find?_of_apart constants_apart _ hc
    · exact List.isPrefixOf_iff_prefix.mpr (List.prefix_append c.1 t)
    · intro d e hapart hd he
      have hd' := List.isPrefixOf_iff_prefix.mp hd
      have he' := List.isPrefixOf_iff_prefix.mp he
      rcases Nat.le_total d.1.length e.1.length with hle | hle
      · exact hapart.1 (List.prefix_of_prefix_length_le hd' he' hle)
      · exact hapart.2 (List.prefix_of_prefix_length_le he' hd' hle)
  rw [parseConstant, hfind]
  simp

theorem parseConstant_cases (h : parseConstant u = some (j, r)) :
    ∃ c ∈ constants, c.2 = j ∧ u = c.1 ++ r := by
  obtain ⟨c, hfind, heq⟩ := Option.map_eq_some_iff.mp h
  obtain ⟨hj, hr⟩ := Prod.mk.inj heq
  have hprefix := List.find?_some (p := fun c : List ℕ × Value => c.1.isPrefixOf u) hfind
  refine ⟨c, List.mem_of_find?_eq_some hfind, hj, ?_⟩
  obtain ⟨rest, hrest⟩ := List.isPrefixOf_iff_prefix.mp hprefix
  rw [← hr, ← hrest, List.drop_left]

theorem parseNumber_constant {c : List ℕ × Value} (hc : c ∈ constants) (t : List ℕ) :
    parseNumber (c.1 ++ t) = none := by
  simp only [constants, List.mem_cons, List.not_mem_nil, or_false] at hc
  rcases hc with rfl | rfl | rfl | rfl | rfl | rfl <;> rfl

theorem parseAtom_append (h : (parseNumber u).or (parseConstant u) = some (j, r))
    (hr : (∃ l, j = .num l) → r ≠ []) (v : List ℕ) :
    (parseNumber (u ++ v)).or (parseConstant (u ++ v)) = some (j, r ++ v) := by
  rcases Option.or_eq_some_iff.mp h with hnumber | ⟨-, hconstant⟩
  · have hnum : ∃ l, j = .num l := by
      unfold parseNumber at hnumber
      split_ifs at hnumber
      cases hnumber
      exact ⟨_, rfl⟩
    rw [parseNumber_append hnumber (hr hnum)]
    rfl
  · obtain ⟨c, hc, rfl, rfl⟩ := parseConstant_cases hconstant
    rw [List.append_assoc, parseNumber_constant hc, parseConstant_of_prefix hc]
    rfl

theorem parseValue_ne_nil {r : Value × List ℕ} (h : parseValue n u = some r) : u ≠ [] := by
  rintro rfl
  cases n <;> cases h

theorem parseMembers_head {r : List (List ℕ × Value) × List ℕ}
    (h : parseMembers n u = some r) : ∃ t, u = 34 :: t := by
  cases n with
  | zero => cases h
  | succ n =>
    rw [parseMembers] at h
    split_ifs at h with hhead
    exact ⟨_, (List.eq_cons_of_mem_head? hhead)⟩

theorem parseItems_ne_nil {r : List Value × List ℕ} (h : parseItems n u = some r) : u ≠ [] := by
  cases n with
  | zero => cases h
  | succ n =>
    rw [parseItems] at h
    obtain ⟨value, hvalue, -⟩ := Option.bind_eq_some_iff.mp h
    exact parseValue_ne_nil hvalue

theorem head?_eq_some (h : t.head? = some c) : t = c :: t.drop 1 := by
  cases t with
  | nil => cases h
  | cons d t =>
    cases h
    rfl

theorem parse_append (n : ℕ) :
    (∀ (u r : List ℕ) (j : Value) (m : ℕ) (v : List ℕ), n ≤ m → parseValue n u = some (j, r) →
        ((∃ l, j = .num l) → r ≠ []) → parseValue m (u ++ v) = some (j, r ++ v)) ∧
      (∀ (u r : List ℕ) (ms : List (List ℕ × Value)) (m : ℕ) (v : List ℕ), n ≤ m →
        parseMembers n u = some (ms, r) → parseMembers m (u ++ v) = some (ms, r ++ v)) ∧
      (∀ (u r : List ℕ) (js : List Value) (m : ℕ) (v : List ℕ), n ≤ m →
        parseItems n u = some (js, r) → parseItems m (u ++ v) = some (js, r ++ v)) := by
  induction n with
  | zero =>
    refine ⟨?_, ?_, ?_⟩
    · intro u r j m v _ h
      cases h
    · intro u r ms m v _ h
      cases h
    · intro u r js m v _ h
      cases h
  | succ n ih =>
    obtain ⟨ihValue, ihMembers, ihItems⟩ := ih
    refine ⟨?_, ?_, ?_⟩
    · intro u r j m v hm h hr
      obtain ⟨m, rfl⟩ := Nat.exists_eq_add_of_le' (Nat.le_trans (Nat.le_add_left 1 n) hm)
      have hnm : n ≤ m := Nat.le_of_succ_le_succ hm
      cases u with
      | nil => cases h
      | cons c rest =>
        rw [parseValue] at h
        rw [List.cons_append, parseValue]
        by_cases hquote : c = 34
        · rw [if_pos hquote] at h ⊢
          obtain ⟨s, hs, heq⟩ := Option.map_eq_some_iff.mp h
          cases heq
          rw [parseString_append hs]
          rfl
        rw [if_neg hquote] at h ⊢
        by_cases hbrace : c = 123
        · rw [if_pos hbrace] at h ⊢
          by_cases hempty : (skipWs rest).head? = some 125
          · rw [if_pos hempty] at h
            cases h
            rw [skipWs_append (head?_eq_some hempty), List.head?_cons, if_pos rfl]
            rfl
          · rw [if_neg hempty] at h
            obtain ⟨ms, hms, heq⟩ := Option.map_eq_some_iff.mp h
            cases heq
            obtain ⟨t, ht⟩ := parseMembers_head hms
            rw [skipWs_append ht, List.head?_cons, if_neg (by decide), ← List.cons_append, ← ht,
              ihMembers _ _ _ m v hnm hms]
            rfl
        rw [if_neg hbrace] at h ⊢
        by_cases hbracket : c = 91
        · rw [if_pos hbracket] at h ⊢
          by_cases hempty : (skipWs rest).head? = some 93
          · rw [if_pos hempty] at h
            cases h
            rw [skipWs_append (head?_eq_some hempty), List.head?_cons, if_pos rfl]
            rfl
          · rw [if_neg hempty] at h
            obtain ⟨js, hjs, heq⟩ := Option.map_eq_some_iff.mp h
            cases heq
            obtain ⟨d, t, ht⟩ := List.exists_cons_of_ne_nil (parseItems_ne_nil hjs)
            have hd : d ≠ 93 := by
              rintro rfl
              exact hempty (by rw [ht]; rfl)
            rw [skipWs_append ht, List.head?_cons, if_neg (by simpa using hd), ← List.cons_append,
              ← ht,
              ihItems _ _ _ m v hnm hjs]
            rfl
        rw [if_neg hbracket] at h ⊢
        exact parseAtom_append h hr v
    · intro u r ms m v hm h
      obtain ⟨m, rfl⟩ := Nat.exists_eq_add_of_le' (Nat.le_trans (Nat.le_add_left 1 n) hm)
      have hnm : n ≤ m := Nat.le_of_succ_le_succ hm
      rw [parseMembers] at h
      split_ifs at h with hquote
      obtain ⟨key, hkey, h⟩ := Option.bind_eq_some_iff.mp h
      split_ifs at h with hcolon
      obtain ⟨value, hvalue, h⟩ := Option.bind_eq_some_iff.mp h
      have hu := head?_eq_some hquote
      have hafter := head?_eq_some hcolon
      have hvalueText := parseValue_ne_nil hvalue
      obtain ⟨d, t, ht⟩ := List.exists_cons_of_ne_nil hvalueText
      have hkey' := parseString_append hkey v
      -- the value is followed by a comma or the end of the object
      have hmore : skipWs value.2 ≠ [] → parseValue m (skipWs ((skipWs key.2).drop 1) ++ v) =
          some (value.1, value.2 ++ v) := by
        intro hrest
        apply ihValue _ _ _ m v hnm hvalue
        rintro - hnil
        exact hrest (by rw [hnil]; rfl)
      rw [parseMembers]
      have hhead : (u ++ v).head? = some 34 := by
        rw [hu]
        rfl
      have hdrop : (u ++ v).drop 1 = u.drop 1 ++ v := by
        rw [hu]
        rfl
      rw [if_pos hhead, hdrop, hkey', Option.bind_some, skipWs_append hafter,
        List.head?_cons, if_pos rfl]
      change (parseValue m (skipWs ((skipWs key.2).drop 1 ++ v))).bind _ = _
      rw [skipWs_append ht, ← List.cons_append, ← ht]
      by_cases hcomma : (skipWs value.2).head? = some 44
      · rw [if_pos hcomma] at h
        obtain ⟨rest, hrest, heq⟩ := Option.map_eq_some_iff.mp h
        cases heq
        have hcons := head?_eq_some hcomma
        obtain ⟨t', ht'⟩ := parseMembers_head hrest
        rw [hmore (by rw [hcons]; exact List.cons_ne_nil _ _), Option.bind_some]
        dsimp only
        rw [skipWs_append hcons, List.head?_cons, if_pos rfl]
        change Option.map _ (parseMembers m (skipWs ((skipWs value.2).drop 1 ++ v))) = _
        rw [skipWs_append ht', ← List.cons_append, ← ht', ihMembers _ _ _ m v hnm hrest]
        rfl
      · rw [if_neg hcomma] at h
        split_ifs at h with hend
        cases h
        have hcons := head?_eq_some hend
        rw [hmore (by rw [hcons]; exact List.cons_ne_nil _ _), Option.bind_some]
        dsimp only
        rw [skipWs_append hcons, List.head?_cons, if_neg (by decide), if_pos rfl]
        rfl
    · intro u r js m v hm h
      obtain ⟨m, rfl⟩ := Nat.exists_eq_add_of_le' (Nat.le_trans (Nat.le_add_left 1 n) hm)
      have hnm : n ≤ m := Nat.le_of_succ_le_succ hm
      rw [parseItems] at h
      obtain ⟨value, hvalue, h⟩ := Option.bind_eq_some_iff.mp h
      have hmore : skipWs value.2 ≠ [] →
          parseValue m (u ++ v) = some (value.1, value.2 ++ v) := by
        intro hrest
        apply ihValue _ _ _ m v hnm hvalue
        rintro - hnil
        exact hrest (by rw [hnil]; rfl)
      rw [parseItems]
      by_cases hcomma : (skipWs value.2).head? = some 44
      · rw [if_pos hcomma] at h
        obtain ⟨rest, hrest, heq⟩ := Option.map_eq_some_iff.mp h
        cases heq
        have hcons := head?_eq_some hcomma
        obtain ⟨d, t', ht'⟩ := List.exists_cons_of_ne_nil (parseItems_ne_nil hrest)
        rw [hmore (by rw [hcons]; exact List.cons_ne_nil _ _), Option.bind_some]
        dsimp only
        rw [skipWs_append hcons, List.head?_cons, if_pos rfl]
        change Option.map _ (parseItems m (skipWs ((skipWs value.2).drop 1 ++ v))) = _
        rw [skipWs_append ht', ← List.cons_append, ← ht', ihItems _ _ _ m v hnm hrest]
        rfl
      · rw [if_neg hcomma] at h
        split_ifs at h with hend
        cases h
        have hcons := head?_eq_some hend
        rw [hmore (by rw [hcons]; exact List.cons_ne_nil _ _), Option.bind_some]
        dsimp only
        rw [skipWs_append hcons, List.head?_cons, if_neg (by decide), if_pos rfl]
        rfl

theorem eq_nil_of_loads {v : List ℕ} {j' : Value} {m : ℕ} (hm : t.length + 1 ≤ m)
    (hbrace : (t ++ v).head? = some 123) (h : parseValue m (t ++ v) = some (j, []))
    (hload : loads t = some j') : v = [] := by
  unfold loads at hload
  split_ifs at hload
  obtain ⟨⟨value, r⟩, hvalue, -⟩ := Option.bind_eq_some_iff.mp hload
  cases t with
  | nil => cases hvalue
  | cons c t =>
    cases hbrace
    have hskip : skipWs (123 :: t) = 123 :: t := rfl
    rw [hskip] at hvalue
    have hobject : ∃ ms, value = .obj ms := by
      rw [parseValue] at hvalue
      rw [if_neg (by decide), if_pos rfl] at hvalue
      split_ifs at hvalue
      · cases hvalue
        exact ⟨_, rfl⟩
      · obtain ⟨ms, -, heq⟩ := Option.map_eq_some_iff.mp hvalue
        cases heq
        exact ⟨_, rfl⟩
    obtain ⟨ms, rfl⟩ := hobject
    have hmore := (parse_append _).1 _ r _ m v hm hvalue (by rintro ⟨l, hl⟩; cases hl)
    rw [h] at hmore
    have hnil := (Prod.mk.inj (Option.some.inj hmore)).2
    exact (List.append_eq_nil_iff.mp hnil.symm).2

theorem hexEscape_hexDigit : ∀ c < 32,
    hexEscape 48 48 (hexDigit (c / 16)) (hexDigit (c % 16)) = some c := by decide

theorem parseUnits_escapeOne (c : ℕ) (t : List ℕ) :
    parseUnits (escapeOne c ++ t) = (parseUnits t).map fun r => (c :: r.1, r.2) := by
  unfold escapeOne
  split_ifs with hquote hslash hb hf hn hr ht hlow
  · subst hquote
    exact parseUnits_escape (by decide) t
  · subst hslash
    exact parseUnits_escape (by decide) t
  · subst hb
    exact parseUnits_escape (by decide) t
  · subst hf
    exact parseUnits_escape (by decide) t
  · subst hn
    exact parseUnits_escape (by decide) t
  · subst hr
    exact parseUnits_escape (by decide) t
  · subst ht
    exact parseUnits_escape (by decide) t
  · simp only [List.cons_append, List.nil_append]
    rw [parseUnits_hex, hexEscape_hexDigit c hlow]
    rfl
  · exact parseUnits_plain hquote hslash hlow t

theorem parseUnits_rendered (s r : List ℕ) :
    parseUnits (s.flatMap escapeOne ++ 34 :: r) = some (s, r) := by
  induction s with
  | nil => exact parseUnits_quote r
  | cons c s ih =>
    rw [List.flatMap_cons, List.append_assoc, parseUnits_escapeOne, ih]
    rfl

theorem joinSurrogates_eq (h : ∀ c ∈ s, ¬ IsSurrogate c) : joinSurrogates s = s := by
  fun_induction joinSurrogates s with
  | case1 => rfl
  | case2 => rfl
  | case3 hi lo rest hpair ih =>
    have hsurrogate : IsSurrogate hi := ⟨hpair.1.1, by omega⟩
    exact absurd hsurrogate (h hi List.mem_cons_self)
  | case4 hi lo rest hpair ih =>
    rw [ih fun c hc => h c (List.mem_cons_of_mem hi hc)]

theorem parseString_rendered (hs : ∀ c ∈ s, ¬ IsSurrogate c) (r : List ℕ) :
    parseString (s.flatMap escapeOne ++ 34 :: r) = some (s, r) := by
  rw [parseString, parseUnits_rendered, Option.map_some, joinSurrogates_eq hs]

/-- A text in front of which a value is read, with as much fuel as needed. -/
structure Reads (fuel : ℕ) (t : List ℕ) (j : Value) : Prop where
  head : ∃ c rest, t = c :: rest ∧ isWs c = false
  reads : ∀ m, fuel ≤ m → ∀ r : List ℕ, (∀ c ∈ r.head?, isNumberChar c = false) →
    parseValue m (t ++ r) = some (j, r)

theorem reads_string (hs : ∀ c ∈ s, ¬ IsSurrogate c) :
    Reads 1 (renderString s) (.str s) where
  head := ⟨34, _, rfl, rfl⟩
  reads m hm r _ := by
    obtain ⟨m, rfl⟩ := Nat.exists_eq_add_of_le' hm
    have htext : renderString s ++ r = 34 :: (s.flatMap escapeOne ++ 34 :: r) := by
      simp [renderString]
    rw [htext, parseValue, if_pos rfl, parseString_rendered hs]
    rfl

theorem reads_null : Reads 1 (text "null") .null where
  head := ⟨110, _, rfl, rfl⟩
  reads m hm r _ := by
    obtain ⟨m, rfl⟩ := Nat.exists_eq_add_of_le' hm
    have hc : (text "null", Value.null) ∈ constants := List.mem_cons_self
    have hvalue : parseValue (m + 1) (text "null" ++ r) =
        (parseNumber (text "null" ++ r)).or (parseConstant (text "null" ++ r)) := rfl
    rw [hvalue, parseNumber_constant hc, parseConstant_of_prefix hc]
    rfl

theorem reads_one : Reads 1 (text "1") (.num (text "1")) where
  head := ⟨49, _, rfl, rfl⟩
  reads m hm r hr := by
    obtain ⟨m, rfl⟩ := Nat.exists_eq_add_of_le' hm
    have hvalue : parseValue (m + 1) (text "1" ++ r) =
        (parseNumber (text "1" ++ r)).or (parseConstant (text "1" ++ r)) := rfl
    have htake : (text "1" ++ r).takeWhile isNumberChar = text "1" := by
      cases r with
      | nil => rfl
      | cons c r =>
        have hc := hr c rfl
        change (49 :: c :: r).takeWhile isNumberChar = [49]
        rw [List.takeWhile_cons_of_pos (by decide), List.takeWhile_cons_of_neg (by simp [hc])]
    have hdrop : (text "1" ++ r).dropWhile isNumberChar = r := by
      have hsplit := List.takeWhile_append_dropWhile (p := isNumberChar) (l := text "1" ++ r)
      rw [htake] at hsplit
      exact List.append_cancel_left hsplit
    have hnumber : isNumber (text "1") = true := by decide
    rw [hvalue, parseNumber, htake, hdrop, if_pos hnumber]
    rfl

structure Member where
  key : List ℕ
  rendered : List ℕ
  value : Value

def Member.text (m : Member) : List ℕ := renderString m.key ++ Utf8Text.text ": " ++ m.rendered

/-- The member is read back with so much fuel. -/
structure Member.Readable (fuel : ℕ) (m : Member) : Prop where
  key : ∀ c ∈ m.key, ¬ IsSurrogate c
  value : Reads fuel m.rendered m.value

theorem skipWs_of_not_ws (h : isWs c = false) (t : List ℕ) : skipWs (c :: t) = c :: t := by
  unfold skipWs
  rw [List.dropWhile_cons_of_neg (by simp [h])]

theorem parseMember_text (h : m.Readable fuel) (hn : fuel ≤ n)
    (ht : ∀ c ∈ t.head?, isNumberChar c = false) :
    parseMembers (n + 1) (m.text ++ t) =
      if (skipWs t).head? = some 44 then
        (parseMembers n (skipWs ((skipWs t).drop 1))).map fun ms =>
          ((m.key, m.value) :: ms.1, ms.2)
      else if (skipWs t).head? = some 125 then some ([(m.key, m.value)], (skipWs t).drop 1)
      else none := by
  obtain ⟨⟨c, rest, hc, hws⟩, hreads⟩ := h.value
  have hvalue := hreads n hn t ht
  have htext : m.text ++ t =
      34 :: (m.key.flatMap escapeOne ++ 34 :: 58 :: 32 :: (m.rendered ++ t)) := by
    simp [Member.text, renderString, Utf8Text.text]
  have hskip : ∀ t : List ℕ, skipWs (32 :: (c :: rest ++ t)) = c :: rest ++ t := by
    intro t
    have hspace : isWs 32 = true := by decide
    unfold skipWs
    rw [List.dropWhile_cons_of_pos hspace, List.cons_append,
      List.dropWhile_cons_of_neg (by simp [hws])]
  have hcolon : skipWs (58 :: 32 :: (m.rendered ++ t)) = 58 :: 32 :: (m.rendered ++ t) := rfl
  rw [htext, parseMembers, List.head?_cons, if_pos rfl]
  change (parseString (m.key.flatMap escapeOne ++
    34 :: 58 :: 32 :: (m.rendered ++ t))).bind _ = _
  rw [parseString_rendered h.key, Option.bind_some]
  rw [hcolon, List.head?_cons, if_pos rfl]
  change (parseValue n (skipWs (32 :: (m.rendered ++ t)))).bind _ = _
  rw [hc, hskip, ← hc, hvalue, Option.bind_some]

theorem parseMember (h : m.Readable fuel) (hn : fuel ≤ n)
    {d : ℕ} (hd : isWs d = false ∧ isNumberChar d = false) (r : List ℕ) :
    parseMembers (n + 1) (m.text ++ d :: r) =
      if d = 44 then (parseMembers n (skipWs r)).map fun ms => ((m.key, m.value) :: ms.1, ms.2)
      else if d = 125 then some ([(m.key, m.value)], r)
      else none := by
  rw [parseMember_text h hn (by rintro c hc; cases hc; exact hd.2), skipWs_of_not_ws hd.1,
    List.head?_cons]
  simp only [Option.some.injEq]
  rfl

theorem intercalate_members (m : Member) (ms : List Member) :
    ∃ t, (text ", ").intercalate ((m :: ms).map Member.text) = 34 :: t := by
  cases ms with
  | nil | cons m' ms => simp [List.intercalate, Member.text, renderString]

theorem parseMembers_rendered (m : Member) (ms : List Member)
    (h : ∀ m' ∈ m :: ms, m'.Readable fuel) (hn : fuel + ms.length < n) (r : List ℕ) :
    parseMembers n ((text ", ").intercalate ((m :: ms).map Member.text) ++ 125 :: r) =
      some ((m :: ms).map fun m => (m.key, m.value), r) := by
  obtain ⟨n, rfl⟩ := Nat.exists_eq_succ_of_ne_zero (Nat.ne_of_gt (Nat.zero_lt_of_lt hn))
  obtain ⟨hm, hms⟩ := List.forall_mem_cons.mp h
  induction ms generalizing m n with
  | nil =>
    have htext : (text ", ").intercalate ([m].map Member.text) ++ 125 :: r =
        m.text ++ 125 :: r := by
      simp [List.intercalate]
    rw [List.length_nil] at hn
    rw [htext, parseMember hm (by omega) (by decide), if_neg (by decide), if_pos rfl]
    rfl
  | cons m' ms ih =>
    rw [List.length_cons] at hn
    obtain ⟨n, rfl⟩ := Nat.exists_eq_succ_of_ne_zero (show n ≠ 0 by omega)
    have htext : (text ", ").intercalate ((m :: m' :: ms).map Member.text) ++ 125 :: r =
        m.text ++ 44 :: (32 :: ((text ", ").intercalate ((m' :: ms).map Member.text) ++
          125 :: r)) := by
      simp [List.intercalate, text]
    have hskip : skipWs (32 :: ((text ", ").intercalate ((m' :: ms).map Member.text) ++
        125 :: r)) = (text ", ").intercalate ((m' :: ms).map Member.text) ++ 125 :: r := by
      obtain ⟨t, ht⟩ := intercalate_members m' ms
      rw [ht]
      rfl
    rw [htext, parseMember hm (by omega) (by decide), if_pos rfl, hskip,
      ih m' hms n (by omega) (List.forall_mem_cons.mp hms).1 (List.forall_mem_cons.mp hms).2]
    rfl

theorem renderObject_eq (ms : List Member) :
    renderObject (ms.map fun m => (m.key, m.rendered)) =
      123 :: ((text ", ").intercalate (ms.map Member.text) ++ [125]) := by
  rw [renderObject, List.map_map]
  rfl

theorem reads_object {ms : List Member} (h : ∀ m ∈ ms, m.Readable fuel) :
    Reads (fuel + ms.length + 1) (renderObject (ms.map fun m => (m.key, m.rendered)))
      (.obj (ms.map fun m => (m.key, m.value))) where
  head := ⟨123, _, renderObject_eq ms, rfl⟩
  reads n hn r _ := by
    obtain ⟨n, rfl⟩ := Nat.exists_eq_add_of_le' (Nat.le_trans (Nat.le_add_left 1 _) hn)
    rw [renderObject_eq, List.cons_append, List.append_assoc, List.singleton_append, parseValue,
      if_neg (by decide), if_pos rfl]
    cases ms with
    | nil => rfl
    | cons m ms =>
      obtain ⟨t, ht⟩ := intercalate_members m ms
      have hskip : skipWs ((text ", ").intercalate ((m :: ms).map Member.text) ++ 125 :: r) =
          (text ", ").intercalate ((m :: ms).map Member.text) ++ 125 :: r := by
        rw [ht]
        rfl
      have hmembers := parseMembers_rendered (n := n) m ms h
        (by rw [List.length_cons] at hn; omega) r
      have hhead : ((text ", ").intercalate ((m :: ms).map Member.text) ++ 125 :: r).head? ≠
          some 125 := by
        rw [ht, List.cons_append, List.head?_cons]
        decide
      rw [hskip, if_neg hhead, hmembers]
      rfl

theorem sum_length_le_intercalate (sep : List ℕ) (l : List (List ℕ)) :
    (l.map List.length).sum ≤ (sep.intercalate l).length := by
  induction l with
  | nil => exact Nat.le_refl _
  | cons a l ih =>
    cases l with
    | nil => simp [List.intercalate]
    | cons b l =>
      rw [List.intercalate_cons_cons, List.length_append, List.length_append, List.map_cons,
        List.sum_cons]
      omega

theorem loads_of_reads (h : Reads fuel t j)
    (hfuel : fuel ≤ t.length + 1) (hbom : t.head? ≠ some 0xFEFF) : loads t = some j := by
  obtain ⟨c, rest, hc, hws⟩ := h.head
  have hskip : skipWs t = t := by
    unfold skipWs
    rw [hc, List.dropWhile_cons_of_neg (by simp [hws])]
  have hvalue := h.reads _ hfuel [] (by rintro c hc; cases hc)
  rw [List.append_nil] at hvalue
  rw [loads, if_neg hbom, hskip, hvalue]
  rfl

theorem length_parseUnits (h : parseUnits u = some (s, r)) :
    s.length < u.length := by
  fun_induction parseUnits u generalizing s r with
  | case1 => cases h
  | case2 rest =>
    cases h
    apply Nat.succ_pos
  | case3 => cases h
  | case4 h' i j k rest _ ih =>
    obtain ⟨unit, -, hmap⟩ := Option.bind_eq_some_iff.mp h
    obtain ⟨⟨s', r'⟩, hrest, heq⟩ := Option.map_eq_some_iff.mp hmap
    cases heq
    have hlength := ih hrest
    simp only [List.length_cons]
    omega
  | case5 => cases h
  | case6 e rest hne _ ih =>
    obtain ⟨unit, -, hmap⟩ := Option.bind_eq_some_iff.mp h
    obtain ⟨⟨s', r'⟩, hrest, heq⟩ := Option.map_eq_some_iff.mp hmap
    cases heq
    have hlength := ih hrest
    simp only [List.length_cons]
    omega
  | case7 => cases h
  | case8 c rest hquote hslash hlow ih =>
    obtain ⟨⟨s', r'⟩, hrest, heq⟩ := Option.map_eq_some_iff.mp h
    cases heq
    have hlength := ih hrest
    simp only [List.length_cons]
    omega

theorem length_joinSurrogates_le (s : List ℕ) : (joinSurrogates s).length ≤ s.length := by
  fun_induction joinSurrogates s with
  | case1 => apply Nat.le_refl
  | case2 => apply Nat.le_refl
  | case3 h l rest _ ih =>
    simp only [List.length_cons]
    omega
  | case4 h l rest _ ih =>
    simp only [List.length_cons] at ih ⊢
    omega

theorem length_parseValue (h : parseValue n t = some (.str s, r)) :
    s.length < t.length := by
  cases n with
  | zero => cases h
  | succ n =>
    cases t with
    | nil => cases h
    | cons c rest =>
      rw [parseValue.eq_def] at h
      dsimp only at h
      split_ifs at h
      · obtain ⟨⟨s', r'⟩, hstring, heq⟩ := Option.map_eq_some_iff.mp h
        cases heq
        obtain ⟨⟨units, r''⟩, hunits, heq⟩ := Option.map_eq_some_iff.mp hstring
        cases heq
        have hlength := length_parseUnits hunits
        have hjoined := length_joinSurrogates_le units
        simp only [List.length_cons]
        omega
      · cases h
      · obtain ⟨r', -, heq⟩ := Option.map_eq_some_iff.mp h
        cases heq
      · cases h
      · obtain ⟨r', -, heq⟩ := Option.map_eq_some_iff.mp h
        cases heq
      · rcases Option.or_eq_some_iff.mp h with hnumber | ⟨-, hconstant⟩
        · unfold parseNumber at hnumber
          split_ifs at hnumber
          cases hnumber
        · -- none of the names stands for a string
          obtain ⟨c', hc', hvalue, -⟩ := parseConstant_cases hconstant
          simp only [constants, List.mem_cons, List.not_mem_nil, or_false] at hc'
          rcases hc' with rfl | rfl | rfl | rfl | rfl | rfl <;> cases hvalue

theorem length_loads (h : loads t = some (.str s)) : s.length < t.length := by
  unfold loads at h
  split_ifs at h
  obtain ⟨⟨j, r⟩, hvalue, hrest⟩ := Option.bind_eq_some_iff.mp h
  split_ifs at hrest
  cases hrest
  have hlength := length_parseValue hvalue
  have hskip : (skipWs t).length ≤ t.length := by
    apply List.IsSuffix.length_le
    exact List.dropWhile_suffix isWs
  omega

end JsonText

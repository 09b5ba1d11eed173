import Mathlib.Data.List.Chain
import WittyService.CommitImport

/-! `upsert_marker_block` and the block of imported prompts that `_prompt_phase` keeps with it in
the AGENTS.md of the default workspace. The first import puts the block in front of the text. Later
ones replace it through `re.sub`, which reads the new block as a template. -/
namespace WittyService

open TextParts Utf8Text

namespace PromptBlock

def isOctal (c : ℕ) : Bool := 48 ≤ c && c ≤ 55

def templateEscape (c : ℕ) : Option ℕ :=
  [(97, 7), (98, 8), (102, 12), (110, 10), (114, 13), (116, 9), (118, 11), (92, 92)].lookup c

/-- `\g<0>` stands for the match. There are no other groups. -/
def readGroup (found : CodePoints) : CodePoints → Option (CodePoints × CodePoints)
  | 60 :: rest =>
    (partition [62] rest).bind fun parts =>
      if parts.1 ≠ [] ∧ parts.1.all (· = 48) then some (found, parts.2) else none
  | _ => none

/-- `\0` and up to two octal digits. -/
def readOctal (rest : CodePoints) : CodePoints × CodePoints :=
  let digits := (rest.take 2).takeWhile isOctal
  ([digits.foldl (fun value digit => value * 8 + (digit - 48)) 0 % 256], rest.drop digits.length)

def readNumber (c : ℕ) : CodePoints → Option (CodePoints × CodePoints)
  | d :: e :: rest =>
    let value := (c - 48) * 64 + (d - 48) * 8 + (e - 48)
    if isOctal c ∧ isOctal d ∧ isOctal e ∧ value ≤ 255 then some ([value], rest) else none
  | _ => none

/-- What stands behind a backslash. An escape of an ASCII letter that is not known is an error,
another one stands for itself. -/
def readEscape (found : CodePoints) : CodePoints → Option (CodePoints × CodePoints)
  | [] => none
  | c :: rest =>
    if c = 103 then readGroup found rest
    else if c = 48 then some (readOctal rest)
    else if isAsciiAlnum c ∧ c < 58 then readNumber c rest
    else match templateEscape c with
      | some d => some ([d], rest)
      | none => if isAsciiAlnum c then none else some ([92, c], rest)

def readToken (found : CodePoints) (c : ℕ) (rest : CodePoints) :
    Option (CodePoints × CodePoints) :=
  if c = 92 then readEscape found rest else some ([c], rest)

def expandLoop (found : CodePoints) : ℕ → CodePoints → Option CodePoints
  | _, [] => some []
  | 0, _ :: _ => none
  | n + 1, c :: rest =>
    (readToken found c rest).bind fun token =>
      (expandLoop found n token.2).map (token.1 ++ ·)

/-- None for `re.error`. -/
def expandTemplate (found template : CodePoints) : Option CodePoints :=
  expandLoop found template.length template

/-- The first match of `begin.*?end`: the text in front of it, what the markers enclose and the
text behind it. -/
def findBlock (first last t : CodePoints) : Option (CodePoints × CodePoints × CodePoints) :=
  (partition first t).bind fun front =>
    (partition last front.2).map fun back => (front.1, back.1, back.2)

/-- `pattern.sub(template, t)`. A match is not empty. -/
def subBlocks (first last template : CodePoints) : ℕ → CodePoints → Option CodePoints
  | 0, t => some t
  | n + 1, t =>
    match findBlock first last t with
    | none => some t
    | some (front, inner, back) =>
      (expandTemplate (first ++ inner ++ last) template).bind fun expanded =>
        (subBlocks first last template n back).map (front ++ expanded ++ ·)

def block (first last body : CodePoints) : CodePoints := first ++ 10 :: body ++ 10 :: last

def upsertMarkerBlock (original first last body : CodePoints) : Option CodePoints :=
  if (findBlock first last original).isSome then
    subBlocks first last (block first last body) original.length original
  else if RuntimeSkills.strip original ≠ [] then
    some (block first last body ++ [10, 10] ++ original)
  else some (block first last body ++ [10])

def BEGIN : CodePoints := text "<!-- BEGIN: IMPORTED_SYSTEM_PROMPT -->"
def END : CodePoints := text "<!-- END: IMPORTED_SYSTEM_PROMPT -->"

/-- What `_prompt_phase` makes of the text of AGENTS.md. -/
def importPrompt (old body : CodePoints) : Option CodePoints := upsertMarkerBlock old BEGIN END body

def importPrompts (old : CodePoints) (bodies : List CodePoints) : Option CodePoints :=
  bodies.foldlM importPrompt old

/-- What stands behind the block: the original text, and what separates it from the block. -/
def Outside (original outside : CodePoints) : Prop :=
  outside = [10, 10] ++ original ∨ RuntimeSkills.strip original = [] ∧ outside = [10]

/-- The block encloses the body, it is the only one, the original text stands behind it, and
another import of the body changes nothing. -/
structure Holds (original body result : CodePoints) : Prop where
  found : ∃ outside, findBlock BEGIN END result = some ([], 10 :: body ++ [10], outside) ∧
    Outside original outside ∧ ¬ BEGIN <:+: outside
  again : importPrompt result body = some result

/-- Every import of the sequence succeeds and replaces the block exactly. -/
def ReplacedExactly (original : CodePoints) (bodies : List CodePoints) : Prop :=
  ∀ earlier body, earlier ++ [body] <+: bodies → ∃ result,
    importPrompts original (earlier ++ [body]) = some result ∧ Holds original body result

def Unmarked (t : CodePoints) : Prop := ¬ BEGIN <:+: t ∧ ¬ END <:+: t

instance (t : CodePoints) : Decidable (Unmarked t) := inferInstanceAs (Decidable (_ ∧ _))

/-- No backslash stands in front of an ASCII letter, an ASCII digit or another backslash. -/
def IsLiteral (body : CodePoints) : Prop :=
  body.IsChain fun c d => c = 92 → d ≠ 92 ∧ isAsciiAlnum d = false

instance (body : CodePoints) : Decidable (IsLiteral body) :=
  inferInstanceAs (Decidable (body.IsChain _))

variable {found t u body original outside : CodePoints} {c n : ℕ}

theorem readToken_cases {rest : CodePoints} {token : CodePoints × CodePoints}
    (h : readToken found c rest = some token) : ∃ taken, c :: rest = taken ++ token.2 ∧
      taken ≠ [] ∧ (token.1 = found ∨ token.1.length < taken.length ∨ token.1 = taken ∧
        (taken = [c] ∧ c ≠ 92 ∨ ∃ d, taken = [92, d] ∧ d ≠ 92 ∧ isAsciiAlnum d = false)) := by
  unfold readToken at h
  split at h
  · next hc =>
    subst hc
    cases rest with
    | nil => cases h
    | cons d rest =>
      unfold readEscape at h
      dsimp only at h
      split_ifs at h with hgroup hoctal hnumber
      · -- a group
        unfold readGroup at h
        split at h
        · next rest' =>
          obtain ⟨parts, hparts, hsome⟩ := Option.bind_eq_some_iff.mp h
          split at hsome
          · cases hsome
            refine ⟨92 :: d :: 60 :: (parts.1 ++ [62]), ?_, List.cons_ne_nil _ _, .inl rfl⟩
            rw [eq_of_partition hparts]
            rfl
          · cases hsome
        · cases h
      · cases h
        refine ⟨92 :: d :: (rest.take 2).takeWhile isOctal, ?_, List.cons_ne_nil _ _,
          .inr (.inl ?_)⟩
        · have hprefix : (rest.take 2).takeWhile isOctal <+: rest :=
            (List.takeWhile_prefix _).trans (List.take_prefix 2 rest)
          rw [readOctal]
          generalize (rest.take 2).takeWhile isOctal = digits at hprefix
          obtain ⟨more, rfl⟩ := hprefix
          rw [List.drop_left, List.cons_append, List.cons_append]
        · rw [readOctal, List.length_singleton, List.length_cons, List.length_cons]
          omega
      · unfold readNumber at h
        split at h
        · next e f rest' =>
          dsimp only at h
          split at h
          · cases h
            exact ⟨[92, d, e, f], rfl, List.cons_ne_nil _ _,
              .inr (.inl (Nat.lt_of_sub_eq_succ rfl))⟩
          · cases h
        · cases h
      · -- an ASCII letter
        next halnum =>
        cases hescape : templateEscape d with
        | some e =>
          rw [hescape] at h
          cases h
          exact ⟨[92, d], rfl, List.cons_ne_nil _ _, .inr (.inl (Nat.lt_of_sub_eq_succ rfl))⟩
        | none =>
          rw [hescape] at h
          cases h
      · next halnum =>
        cases hescape : templateEscape d with
        | some e =>
          rw [hescape] at h
          cases h
          exact ⟨[92, d], rfl, List.cons_ne_nil _ _, .inr (.inl (Nat.lt_of_sub_eq_succ rfl))⟩
        | none =>
          rw [hescape] at h
          cases h
          refine ⟨[92, d], rfl, List.cons_ne_nil _ _, .inr (.inr ⟨rfl, .inr ⟨d, rfl, ?_, ?_⟩⟩)⟩
          · rintro rfl
            cases hescape
          · exact Bool.eq_false_iff.mpr halnum
  · next hc =>
    cases h
    exact ⟨[c], rfl, List.cons_ne_nil _ _, .inr (.inr ⟨rfl, .inl ⟨rfl, hc⟩⟩)⟩

theorem expandLoop_cases (hn : t.length ≤ n) (h : expandLoop found n t = some u) :
    found <:+: u ∨ u.length < t.length ∨ u = t ∧ IsLiteral t := by
  induction n generalizing t u with
  | zero =>
    obtain rfl := List.length_eq_zero_iff.mp (Nat.le_zero.mp hn)
    cases h
    exact .inr (.inr ⟨rfl, .nil⟩)
  | succ n ih =>
    cases t with
    | nil =>
      cases h
      exact .inr (.inr ⟨rfl, .nil⟩)
    | cons c rest =>
      obtain ⟨token, htoken, hmap⟩ := Option.bind_eq_some_iff.mp h
      obtain ⟨more, hmore, rfl⟩ := Option.map_eq_some_iff.mp hmap
      obtain ⟨taken, htaken, hne, hcases⟩ := readToken_cases htoken
      have hlength : (c :: rest).length = taken.length + token.2.length := by
        rw [htaken, List.length_append]
      have hpos := List.length_pos_iff.mpr hne
      obtain hin | hshort | ⟨rfl, hlit⟩ := ih (by omega) hmore
      · exact .inl (hin.trans (List.suffix_append _ _).isInfix)
      · obtain hfound | hless | ⟨hsame, -⟩ := hcases
        · exact .inl (hfound ▸ (List.prefix_append _ _).isInfix)
        · refine .inr (.inl ?_)
          rw [List.length_append]
          omega
        · refine .inr (.inl ?_)
          rw [hsame, List.length_append]
          omega
      · obtain hfound | hless | ⟨hsame, hplain⟩ := hcases
        · exact .inl (hfound ▸ (List.prefix_append _ _).isInfix)
        · refine .inr (.inl ?_)
          rw [List.length_append]
          omega
        · refine .inr (.inr ⟨by rw [htaken, hsame], ?_⟩)
          rw [htaken]
          obtain ⟨rfl, hc⟩ | ⟨d, rfl, hd, halnum⟩ := hplain
          · exact List.IsChain.cons hlit fun _ _ h => absurd h hc
          · refine List.IsChain.cons (List.IsChain.cons hlit fun _ _ h => absurd h hd) ?_
            rintro _ ⟨⟩ -
            exact ⟨hd, halnum⟩

theorem expandLoop_literal (hn : t.length ≤ n) (hlit : IsLiteral t)
    (hlast : t.getLast? ≠ some 92) : expandLoop found n t = some t := by
  induction n generalizing t with
  | zero =>
    obtain rfl := List.length_eq_zero_iff.mp (Nat.le_zero.mp hn)
    rfl
  | succ n ih =>
    cases t with
    | nil => rfl
    | cons c rest =>
      rw [List.length_cons] at hn
      by_cases hc : c = 92
      · subst hc
        cases rest with
        | nil => exact absurd rfl hlast
        | cons d rest =>
          rw [List.length_cons] at hn
          obtain ⟨hd, halnum⟩ := (List.isChain_cons_cons.mp hlit).1 rfl
          have hlit' : IsLiteral rest := hlit.tail.tail
          have hlast' : rest.getLast? ≠ some 92 := by
            cases rest with
            | nil => nofun
            | cons e rest => rwa [List.getLast?_cons_cons, List.getLast?_cons_cons] at hlast
          have hrest := ih (t := rest) (by omega) hlit' hlast'
          have htoken : readToken found 92 (d :: rest) = some ([92, d], rest) := by
            have hne : ∀ e, isAsciiAlnum e = true → d ≠ e := by
              rintro e he rfl
              rw [halnum] at he
              cases he
            have hescape : templateEscape d = none := by
              rw [templateEscape, List.lookup_eq_none_iff]
              have hall : [(97, 7), (98, 8), (102, 12), (110, 10), (114, 13), (116, 9), (118, 11),
                  (92, 92)].all (fun e : ℕ × ℕ => isAsciiAlnum e.1 || e.1 = 92) = true := by decide
              intro e he
              obtain h | h := Bool.or_eq_true_iff.mp (List.all_eq_true.mp hall e he)
              · exact bne_iff_ne.mpr (hne e.1 h)
              · exact bne_iff_ne.mpr (of_decide_eq_true h ▸ hd)
            rw [readToken, if_pos rfl, readEscape, if_neg (hne 103 rfl), if_neg (hne 48 rfl),
              if_neg (by rw [halnum]; exact fun h => Bool.false_ne_true h.1), hescape]
            rw [halnum, if_neg Bool.false_ne_true]
          rw [expandLoop, htoken, Option.bind_some, hrest]
          rfl
      · have hlast' : rest.getLast? ≠ some 92 := by
          cases rest with
          | nil => nofun
          | cons e rest => rwa [List.getLast?_cons_cons] at hlast
        have hrest := ih (t := rest) (by omega) hlit.tail hlast'
        rw [expandLoop, readToken, if_neg hc, Option.bind_some, hrest]
        rfl

theorem expandLoop_append {p : CodePoints} (hp : 92 ∉ p) (n : ℕ) (t : CodePoints) :
    expandLoop found (p.length + n) (p ++ t) = (expandLoop found n t).map (p ++ ·) := by
  induction p with
  | nil =>
    rw [List.length_nil, Nat.zero_add, List.nil_append]
    exact Option.map_id'.symm
  | cons c p ih =>
    obtain ⟨hc, hp⟩ := not_or.mp (List.mem_cons.not.mp hp)
    rw [List.length_cons, Nat.add_right_comm, List.cons_append, expandLoop, readToken,
      if_neg (Ne.symm hc), Option.bind_some, ih hp, Option.map_map]
    rfl

theorem break_not_mem : 10 ∉ BEGIN ∧ 10 ∉ END := by decide

theorem markers_ne_nil : BEGIN ≠ [] ∧ END ≠ [] := by decide

theorem block_eq (body : CodePoints) :
    block BEGIN END body = (BEGIN ++ [10]) ++ (body ++ 10 :: END) := by
  rw [block, List.append_assoc, List.append_assoc]
  rfl

theorem expandTemplate_block (found body : CodePoints) :
    expandTemplate found (block BEGIN END body) =
      (expandLoop found (body ++ 10 :: END).length (body ++ 10 :: END)).map
        ((BEGIN ++ [10]) ++ ·) := by
  have hp : 92 ∉ BEGIN ++ [10] := by decide
  rw [expandTemplate, block_eq, List.length_append, expandLoop_append hp]

theorem isLiteral_block (h : IsLiteral body) : IsLiteral (body ++ 10 :: END) := by
  have hend : IsLiteral (10 :: END) := by
    decide
  refine List.IsChain.append h hend ?_
  rintro c hc _ ⟨⟩ -
  decide

theorem expandTemplate_iff (hbody : ¬ BEGIN <:+: body) (old : CodePoints) :
    expandTemplate (block BEGIN END old) (block BEGIN END body) = some (block BEGIN END body) ↔
      IsLiteral body := by
  rw [expandTemplate_block]
  constructor
  · intro h
    obtain ⟨u, hu, heq⟩ := Option.map_eq_some_iff.mp h
    rw [block_eq body] at heq
    obtain rfl := List.append_cancel_left heq
    obtain hin | hless | ⟨-, hlit⟩ := expandLoop_cases (Nat.le_refl _) hu
    · -- the old block begins with a marker
      have hmarker : BEGIN <:+: block BEGIN END old := by
        rw [block, List.append_assoc]
        exact (List.prefix_append _ _).isInfix
      obtain h | h := infix_of_infix_break break_not_mem.1 (hmarker.trans hin)
      · exact absurd h hbody
      · exact absurd h (by decide)
    · exact absurd hless (Nat.lt_irrefl _)
    · exact List.IsChain.left_of_append hlit
  · intro h
    have hlast : (body ++ 10 :: END).getLast? ≠ some 92 := by
      rw [List.getLast?_append]
      exact fun h => absurd (Option.some.inj h) (by decide)
    rw [expandLoop_literal (Nat.le_refl _) (isLiteral_block h) hlast, block_eq]
    rfl

theorem findBlock_block (hbody : ¬ END <:+: body) (outside : CodePoints) :
    findBlock BEGIN END (block BEGIN END body ++ outside) =
      some ([], 10 :: body ++ [10], outside) := by
  have hblock : block BEGIN END body ++ outside =
      BEGIN ++ ((10 :: body) ++ 10 :: (END ++ outside)) := by
    rw [block]
    simp
  have hinner : ¬ END <:+: 10 :: body := by
    intro h
    obtain h | h := infix_of_infix_break (a := []) break_not_mem.2 h
    · exact absurd h (by decide)
    · exact hbody h
  rw [findBlock, hblock, partition_append, Option.bind_some,
    partition_break outside break_not_mem.2 markers_ne_nil.2 hinner]
  rfl

theorem eq_of_findBlock {first last front inner back : CodePoints}
    (h : findBlock first last t = some (front, inner, back)) :
    t = front ++ first ++ (inner ++ last ++ back) := by
  obtain ⟨before, hbefore, hmap⟩ := Option.bind_eq_some_iff.mp h
  obtain ⟨behind, hbehind, heq⟩ := Option.map_eq_some_iff.mp hmap
  cases heq
  rw [eq_of_partition hbefore, ← eq_of_partition hbehind]

theorem findBlock_eq_none (h : ¬ BEGIN <:+: t) : findBlock BEGIN END t = none := by
  rw [findBlock, partition_eq_none h]
  rfl

theorem importPrompt_first (h : ¬ BEGIN <:+: original) (body : CodePoints) : ∃ outside,
    importPrompt original body = some (block BEGIN END body ++ outside) ∧
      Outside original outside ∧ ¬ BEGIN <:+: outside := by
  rw [importPrompt, upsertMarkerBlock, findBlock_eq_none h, if_neg (by decide)]
  split_ifs with hstrip
  · refine ⟨[10, 10] ++ original, by rw [List.append_assoc], .inl rfl, ?_⟩
    intro hin
    obtain hin | hin := infix_of_infix_break (a := []) break_not_mem.1 hin
    · exact absurd hin (by decide)
    · obtain hin | hin := infix_of_infix_break (a := []) break_not_mem.1 hin
      · exact absurd hin (by decide)
      · exact h hin
  · exact ⟨[10], rfl, .inr ⟨not_not.mp hstrip, rfl⟩, by decide⟩

theorem importPrompt_again {old : CodePoints} (hold : ¬ END <:+: old)
    (houtside : ¬ BEGIN <:+: outside) (body : CodePoints) :
    importPrompt (block BEGIN END old ++ outside) body =
      (expandTemplate (block BEGIN END old) (block BEGIN END body)).map (· ++ outside) := by
  have hfind := findBlock_block hold outside
  have hmatch : BEGIN ++ (10 :: old ++ [10]) ++ END = block BEGIN END old := by
    rw [block]
    simp
  rw [importPrompt, upsertMarkerBlock, hfind, Option.isSome_some, if_pos rfl]
  cases hlength : (block BEGIN END old ++ outside).length with
  | zero =>
    rw [block, List.append_assoc, List.append_assoc, List.length_append] at hlength
    have hpos := List.length_pos_iff.mpr markers_ne_nil.1
    omega
  | succ n =>
    have hrest : subBlocks BEGIN END (block BEGIN END body) n outside = some outside := by
      cases n with
      | zero => rfl
      | succ n => rw [subBlocks, findBlock_eq_none houtside]
    rw [subBlocks, hfind]
    dsimp only
    rw [hmatch, hrest]
    cases expandTemplate (block BEGIN END old) (block BEGIN END body) with
    | none | some expanded => rfl

theorem importPrompts_concat (original : CodePoints) (earlier : List CodePoints)
    (body : CodePoints) : importPrompts original (earlier ++ [body]) =
      (importPrompts original earlier).bind (importPrompt · body) := by
  rw [importPrompts, importPrompts, List.foldlM_append]
  cases List.foldlM importPrompt original earlier with
  | none => rfl
  | some t =>
    cases h : importPrompt t body with
    | none | some t' => simp [h]

theorem importPrompts_literal {earlier : List CodePoints} (h : Unmarked original)
    (hearlier : ∀ b ∈ earlier, Unmarked b) (hbody : Unmarked body)
    (hlit : ∀ b ∈ earlier ++ [body], IsLiteral b) : ∃ outside,
    importPrompts original (earlier ++ [body]) = some (block BEGIN END body ++ outside) ∧
      Outside original outside ∧ ¬ BEGIN <:+: outside := by
  induction earlier using List.reverseRecOn generalizing body with
  | nil =>
    obtain ⟨outside, himport, hrest⟩ := importPrompt_first h.1 body
    exact ⟨outside, (importPrompts_concat original [] body).trans himport, hrest⟩
  | append_singleton earlier last ih =>
    have hlast := hearlier last (List.mem_append_right _ (List.mem_singleton_self last))
    obtain ⟨outside, hrun, hout, hmarker⟩ := ih
      (fun b hb => hearlier b (List.mem_append_left _ hb)) hlast
      (fun b hb => hlit b (List.mem_append_left _ hb))
    have hbody' := hlit body (List.mem_append_right _ (List.mem_singleton_self body))
    refine ⟨outside, ?_, hout, hmarker⟩
    rw [importPrompts_concat, hrun, Option.bind_some, importPrompt_again hlast.2 hmarker,
      (expandTemplate_iff hbody.1 last).mpr hbody']
    rfl

/-- Every import of a sequence replaces the block exactly when no body holds a backslash that a
template reads. -/
theorem replacedExactly_iff (original : CodePoints) (bodies : List CodePoints)
    (horiginal : Unmarked original) (hbodies : ∀ body ∈ bodies, Unmarked body) :
    ReplacedExactly original bodies ↔ ∀ body ∈ bodies, IsLiteral body := by
  constructor
  · intro h body hbody
    obtain ⟨earlier, later, rfl⟩ := List.append_of_mem hbody
    obtain ⟨result, -, hholds⟩ := h earlier body ⟨later, by rw [List.append_assoc]; rfl⟩
    obtain ⟨outside, hfind, -, hmarker⟩ := hholds.found
    have hresult : result = block BEGIN END body ++ outside := by
      rw [eq_of_findBlock hfind, block]
      simp
    have hagain := hholds.again
    rw [hresult, importPrompt_again (hbodies body hbody).2 hmarker] at hagain
    obtain ⟨expanded, hexpanded, heq⟩ := Option.map_eq_some_iff.mp hagain
    rw [List.append_cancel_right heq] at hexpanded
    exact (expandTemplate_iff (hbodies body hbody).1 body).mp hexpanded
  · intro h earlier body hbegin
    have hmem : ∀ b ∈ earlier ++ [body], b ∈ bodies := fun b hb => hbegin.subset hb
    have hbody := hmem body (List.mem_append_right _ (List.mem_singleton_self body))
    obtain ⟨outside, hrun, hout, hmarker⟩ := importPrompts_literal horiginal
      (fun b hb => hbodies b (hmem b (List.mem_append_left _ hb))) (hbodies body hbody)
      (fun b hb => h b (hmem b hb))
    refine ⟨_, hrun, ⟨outside, findBlock_block (hbodies body hbody).2 outside, hout, hmarker⟩, ?_⟩
    rw [importPrompt_again (hbodies body hbody).2 hmarker,
      (expandTemplate_iff (hbodies body hbody).1 body).mpr (h body hbody)]
    rfl

def digitClass : CodePoints := text "use \\d+ for numbers"

/-- The second import of the prompt raises. -/
theorem digitClass_not_replaced :
    ¬ ReplacedExactly (text "# Agent\n") [digitClass, digitClass] := by
  intro h
  obtain ⟨result, hrun, -⟩ := h [digitClass] digitClass (List.prefix_refl _)
  have hnone : importPrompts (text "# Agent\n") ([digitClass] ++ [digitClass]) = none := by
    decide +kernel
  rw [hnone] at hrun
  cases hrun

theorem plain_replaced :
    ReplacedExactly (text "# Agent\n") [text "You are kind.", text "Be brief."] := by
  refine (replacedExactly_iff _ _ (by decide) ?_).mpr ?_
  · exact List.forall_mem_cons.mpr ⟨by decide, List.forall_mem_singleton.mpr (by decide)⟩
  · exact List.forall_mem_cons.mpr ⟨by decide, List.forall_mem_singleton.mpr (by decide)⟩

end PromptBlock

end WittyService

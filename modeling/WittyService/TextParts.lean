import Mathlib.Data.List.Basic
import Mathlib.Data.List.DropRight
import Mathlib.Data.List.Infix
import Mathlib.Data.List.TakeWhile
import Mathlib.Tactic.ByContra

/-! Texts as lists of letters: the parts between the letters that separate them, two texts joined by
a separator, and a text without the letters of some kind at its ends. -/
namespace TextParts

variable {α : Type*} {p : α → Bool} {x : α}

theorem not_of_mem_splitOnP {xs part : List α} (h : part ∈ xs.splitOnP p) (hx : x ∈ part) :
    p x = false := by
  induction xs generalizing part with
  | nil =>
    rw [List.splitOnP_nil, List.mem_singleton] at h
    rw [h] at hx
    cases hx
  | cons y xs ih =>
    rw [List.splitOnP_cons_eq_if_modifyHead] at h
    split at h
    · obtain rfl | h := List.mem_cons.mp h
      · cases hx
      · exact ih h hx
    · next hy =>
      obtain ⟨first, rest, hparts⟩ :=
        List.exists_cons_of_ne_nil (List.splitOnP_ne_nil p xs)
      rw [hparts, List.modifyHead_cons] at h
      rw [hparts] at ih
      obtain rfl | h := List.mem_cons.mp h
      · obtain rfl | hx := List.mem_cons.mp hx
        · exact Bool.of_not_eq_true hy
        · exact ih List.mem_cons_self hx
      · exact ih (List.mem_cons_of_mem first h) hx

variable {parts : List (List α)} {needle a b : List α}

theorem of_mem_intercalate {sep : List α}
    (h : x ∈ sep.intercalate parts) : x ∈ sep ∨ ∃ part ∈ parts, x ∈ part := by
  induction parts with
  | nil => cases h
  | cons first rest ih =>
    cases rest with
    | nil =>
      rw [List.intercalate_singleton] at h
      exact .inr ⟨first, List.mem_cons_self, h⟩
    | cons second rest =>
      rw [List.intercalate_cons_cons, List.mem_append, List.mem_append] at h
      obtain (h | h) | h := h
      · exact .inr ⟨first, List.mem_cons_self, h⟩
      · exact .inl h
      · obtain hsep | ⟨part, hpart, hx⟩ := ih h
        · exact .inl hsep
        · exact .inr ⟨part, List.mem_cons_of_mem first hpart, hx⟩

theorem mem_intercalate {sep part : List α} (hpart : part ∈ parts)
    (h : x ∈ part) : x ∈ sep.intercalate parts := by
  induction parts with
  | nil => cases hpart
  | cons first rest ih =>
    cases rest with
    | nil =>
      rw [List.intercalate_singleton, ← List.mem_singleton.mp hpart]
      exact h
    | cons second rest =>
      rw [List.intercalate_cons_cons]
      obtain rfl | hpart := List.mem_cons.mp hpart
      · exact List.mem_append_left _ (List.mem_append_left _ h)
      · exact List.mem_append_right _ (ih hpart)

theorem splitOnP_cases (p : α → Bool) (xs : List α) :
    (∀ x ∈ xs, p x = false) ∧ xs.splitOnP p = [xs] ∨
      ∃ first sep rest, xs = first ++ sep :: rest ∧ p sep ∧ (∀ x ∈ first, p x = false) ∧
        xs.splitOnP p = first :: rest.splitOnP p := by
  by_cases h : ∀ x ∈ xs, p x = false
  · exact .inl ⟨h, List.splitOnP_eq_singleton h⟩
  · have hdrop : xs.dropWhile (fun x => !p x) ≠ [] := by
      intro hnil
      refine h fun x hx => ?_
      have hx := List.dropWhile_eq_nil_iff.mp hnil x hx
      rwa [Bool.not_eq_true'] at hx
    obtain ⟨sep, rest, hrest⟩ := List.exists_cons_of_ne_nil hdrop
    have hsep : p sep := by
      have hhead := List.head_dropWhile_not (fun x => !p x) hdrop
      simpa only [hrest, List.head_cons, Bool.not_eq_false', Bool.not_eq_eq_eq_not, Bool.not_false]
        using hhead
    have hfirst : ∀ x ∈ xs.takeWhile (fun x => !p x), p x = false := by
      intro x hx
      have hx := List.mem_takeWhile_imp hx
      rwa [Bool.not_eq_true'] at hx
    have heq : xs = xs.takeWhile (fun x => !p x) ++ sep :: rest := by
      rw [← hrest, List.takeWhile_append_dropWhile]
    refine .inr ⟨_, sep, rest, heq, hsep, hfirst, ?_⟩
    conv_lhs => rw [heq]
    exact List.splitOnP_append_cons_of_forall_mem hfirst sep hsep rest

theorem infix_of_mem_splitOnP {xs part : List α} (h : part ∈ xs.splitOnP p) : part <:+: xs := by
  obtain ⟨-, heq⟩ | ⟨first, sep, rest, hxs, -, -, heq⟩ := splitOnP_cases p xs
  · rw [heq, List.mem_singleton] at h
    exact h ▸ List.infix_refl xs
  · rw [heq] at h
    obtain rfl | h := List.mem_cons.mp h
    · exact hxs ▸ (List.prefix_append part (sep :: rest)).isInfix
    · have hlength : rest.length < xs.length := by
        rw [hxs, List.length_append, List.length_cons]
        omega
      obtain ⟨l, r, hrest⟩ := infix_of_mem_splitOnP h
      refine ⟨first ++ sep :: l, r, ?_⟩
      rw [hxs, ← hrest, List.append_assoc, List.append_assoc, List.cons_append, List.append_assoc]
termination_by xs.length

theorem splitOnP_append_of_forall {front xs : List α} (h : ∀ x ∈ front, p x = false) :
    (front ++ xs).splitOnP p = (xs.splitOnP p).modifyHead (front ++ ·) := by
  obtain ⟨hxs, heq⟩ | ⟨first, sep, rest, rfl, hsep, hfirst, heq⟩ := splitOnP_cases p xs
  · rw [heq, List.modifyHead_cons]
    exact List.splitOnP_eq_singleton fun x hx => (List.mem_append.mp hx).elim (h x) (hxs x)
  · rw [heq, List.modifyHead_cons, ← List.append_assoc]
    refine List.splitOnP_append_cons_of_forall_mem (fun x hx => ?_) sep hsep rest
    exact (List.mem_append.mp hx).elim (h x) (hfirst x)

theorem splitOnP_append_of_all {xs back : List α} (h : ∀ x ∈ back, p x) :
    (xs ++ back).splitOnP p = xs.splitOnP p ++ List.replicate back.length [] := by
  induction xs with
  | nil =>
    rw [List.nil_append, List.splitOnP_nil]
    induction back with
    | nil => rfl
    | cons x back ih =>
      obtain ⟨hx, hback⟩ := List.forall_mem_cons.mp h
      rw [List.splitOnP_cons_eq_if_modifyHead, if_pos hx, ih hback]
      rfl
  | cons x xs ih =>
    rw [List.cons_append, List.splitOnP_cons_eq_if_modifyHead,
      List.splitOnP_cons_eq_if_modifyHead, ih]
    split_ifs
    · rfl
    · obtain ⟨first, rest, heq⟩ := List.exists_cons_of_ne_nil (List.splitOnP_ne_nil p xs)
      rw [heq]
      rfl

theorem prefix_of_prefix_break (hx : x ∉ needle) (h : needle <+: a ++ x :: b) : needle <+: a := by
  refine List.prefix_of_prefix_length_le h (List.prefix_append a _) ?_
  by_contra hlen
  refine hx ?_
  have hlong : a ++ [x] <+: needle := by
    have hbreak : a ++ [x] <+: a ++ x :: b :=
      ⟨b, by rw [List.append_assoc, List.singleton_append]⟩
    refine List.prefix_of_prefix_length_le hbreak h ?_
    rw [List.length_append, List.length_singleton]
    omega
  exact hlong.subset (List.mem_append_right a (List.mem_singleton_self _))

theorem infix_of_infix_break (hx : x ∉ needle)
    (h : needle <:+: a ++ x :: b) : needle <:+: a ∨ needle <:+: b := by
  induction a with
  | nil =>
    obtain h | h := List.infix_cons_iff.mp h
    · exact .inl (prefix_of_prefix_break (a := []) hx h).isInfix
    · exact .inr h
  | cons c a ih =>
    obtain h | h := List.infix_cons_iff.mp h
    · exact .inl (prefix_of_prefix_break (a := c :: a) hx h).isInfix
    · exact (ih h).imp_left List.infix_cons

section

variable [DecidableEq α] {sep : List α}

/-- The text in front of the first place where `sep` stands, and the text behind it. -/
def partition (sep : List α) : List α → Option (List α × List α)
  | [] => if sep = [] then some ([], []) else none
  | c :: t =>
    if sep <+: c :: t then some ([], (c :: t).drop sep.length)
    else (partition sep t).map fun parts => (c :: parts.1, parts.2)

variable {t : List α}

theorem partition_eq_none (h : ¬ sep <:+: t) : partition sep t = none := by
  induction t with
  | nil =>
    rw [partition, if_neg]
    rintro rfl
    exact h (List.infix_refl [])
  | cons c t ih =>
    rw [partition, if_neg fun hprefix => h hprefix.isInfix,
      ih fun hinfix => h (List.infix_cons hinfix), Option.map_none]

theorem partition_append (sep rest : List α) : partition sep (sep ++ rest) = some ([], rest) := by
  cases h : sep ++ rest with
  | nil =>
    obtain ⟨rfl, rfl⟩ := List.append_eq_nil_iff.mp h
    rfl
  | cons c t =>
    rw [partition, if_pos (h ▸ List.prefix_append sep rest), ← h, List.drop_left]

theorem partition_break (rest : List α) (hx : x ∉ sep) (hne : sep ≠ []) (h : ¬ sep <:+: t) :
    partition sep (t ++ x :: (sep ++ rest)) = some (t ++ [x], rest) := by
  induction t with
  | nil =>
    have hnot : ¬ sep <+: x :: (sep ++ rest) := fun hprefix =>
      hne (List.prefix_nil.mp (prefix_of_prefix_break (a := []) hx hprefix))
    rw [List.nil_append, partition, if_neg hnot, partition_append]
    rfl
  | cons c t ih =>
    have hnot : ¬ sep <+: c :: (t ++ x :: (sep ++ rest)) := fun hprefix =>
      h (prefix_of_prefix_break (a := c :: t) hx hprefix).isInfix
    rw [List.cons_append, partition, if_neg hnot, ih fun hinfix => h (List.infix_cons hinfix)]
    rfl

theorem eq_of_partition {parts : List α × List α}
    (h : partition sep t = some parts) : t = parts.1 ++ sep ++ parts.2 := by
  induction t generalizing parts with
  | nil =>
    rw [partition] at h
    split at h
    · next hsep =>
      cases h
      rw [hsep]
      rfl
    · cases h
  | cons c t ih =>
    rw [partition] at h
    split at h
    · next hprefix =>
      cases h
      rw [List.nil_append, List.prefix_append_drop hprefix]
      simp
    · obtain ⟨parts', hparts, rfl⟩ := Option.map_eq_some_iff.mp h
      rw [List.cons_append, List.cons_append, ← ih hparts]

end

end TextParts

/-! Two texts joined by a separator that begins and ends with a letter it does not hold in between.
Two pairs join to one text when they are equal, when the first text of one of them holds the
separator, or when it ends with all of it but the last letter. -/
namespace SeparatedParts

variable {α : Type*} {edge : α} {inner first second first' second' : List α}

def separator (edge : α) (inner : List α) : List α := edge :: inner ++ [edge]

def join (edge : α) (inner first second : List α) : List α :=
  first ++ separator edge inner ++ second

/-- The separator of the pair with the longer first text lies further on: behind that of the other
pair, or on its last letter. -/
def Slides (edge : α) (inner first second first' second' : List α) : Prop :=
  (∃ between, first' = first ++ separator edge inner ++ between ∧
    second = between ++ separator edge inner ++ second') ∨
  (first' = first ++ edge :: inner ∧ second = inner ++ edge :: second')

/-- The place of the separator is the only thing two pairs can differ in. -/
def Joinable (edge : α) (inner first second first' second' : List α) : Prop :=
  (first = first' ∧ second = second') ∨ Slides edge inner first second first' second' ∨
    Slides edge inner first' second' first second

theorem join_of_slides (h : Slides edge inner first second first' second') :
    join edge inner first second = join edge inner first' second' := by
  obtain ⟨between, rfl, rfl⟩ | ⟨rfl, rfl⟩ := h
  · simp [join, separator]
  · simp [join, separator]

theorem slides_of_rest {rest : List α} (hedge : edge ∉ inner) (hne : rest ≠ [])
    (hfirst : first' = first ++ rest)
    (h : separator edge inner ++ second = rest ++ (separator edge inner ++ second')) :
    Slides edge inner first second first' second' := by
  obtain ⟨between, hrest, hsecond⟩ | ⟨tail, hsep, htail⟩ := List.append_eq_append_iff.mp h
  · refine .inl ⟨between, ?_, ?_⟩
    · rw [hfirst, hrest, List.append_assoc]
    · rw [hsecond, List.append_assoc]
  -- the separator ends inside of the other one, which begins with the same letter
  · obtain ⟨letter, rest', rfl⟩ := List.exists_cons_of_ne_nil hne
    obtain ⟨hletter, hinner⟩ : edge = letter ∧ inner ++ [edge] = rest' ++ tail := by
      simpa only [separator, List.cons_append, List.cons.injEq] using hsep
    cases tail with
    | nil =>
      rw [List.append_nil] at hinner
      refine .inl ⟨[], ?_, ?_⟩
      · rw [hfirst, ← hletter, ← hinner]
        simp [separator]
      · exact htail.symm
    | cons last tail =>
      obtain ⟨hlast, htail⟩ : edge = last ∧ inner ++ [edge] ++ second' = tail ++ second := by
        simpa only [separator, List.cons_append, List.cons.injEq] using htail
      have hsplit : inner ++ [edge] = rest' ++ edge :: tail := by rw [hinner, hlast]
      have hends : tail = [] := by
        by_contra hne
        obtain ⟨start, letter', rfl⟩ := List.eq_nil_or_concat tail |>.resolve_left hne
        refine hedge ?_
        have hcut : inner = rest' ++ edge :: start := by
          have hlists : inner ++ [edge] = (rest' ++ edge :: start) ++ [letter'] := by
            rw [hsplit, List.concat_eq_append]
            simp
          exact (List.append_inj' hlists rfl).1
        rw [hcut]
        exact List.mem_append_right rest' List.mem_cons_self
      rw [hends] at hsplit htail
      have hrest : inner = rest' := (List.append_inj' hsplit rfl).1
      refine .inr ⟨?_, ?_⟩
      · rw [hfirst, ← hletter, ← hrest]
      · rw [List.nil_append] at htail
        rw [← htail, List.append_assoc, List.singleton_append]

theorem slides_or_eq {rest : List α} (hedge : edge ∉ inner) (hfirst : first' = first ++ rest)
    (h : separator edge inner ++ second = rest ++ (separator edge inner ++ second')) :
    (first = first' ∧ second = second') ∨ Slides edge inner first second first' second' := by
  cases rest with
  | nil =>
    rw [List.append_nil] at hfirst
    exact .inl ⟨hfirst.symm, List.append_cancel_left h⟩
  | cons letter rest =>
    have hne : letter :: rest ≠ [] := List.cons_ne_nil letter rest
    exact .inr (slides_of_rest hedge hne hfirst h)

theorem join_eq_join_iff (hedge : edge ∉ inner) :
    join edge inner first second = join edge inner first' second' ↔
      Joinable edge inner first second first' second' := by
  constructor
  · intro h
    rw [join, join, List.append_assoc, List.append_assoc] at h
    obtain ⟨rest, hfirst, hrest⟩ | ⟨rest, hfirst, hrest⟩ := List.append_eq_append_iff.mp h
    · obtain heq | hslides := slides_or_eq hedge hfirst hrest
      · exact .inl heq
      · exact .inr (.inl hslides)
    · obtain ⟨heq, heq'⟩ | hslides := slides_or_eq hedge hfirst hrest
      · exact .inl ⟨heq.symm, heq'.symm⟩
      · exact .inr (.inr hslides)
  · rintro (⟨rfl, rfl⟩ | hslides | hslides)
    · rfl
    · exact join_of_slides hslides
    · exact (join_of_slides hslides).symm

end SeparatedParts

namespace TextTrim

variable {α : Type*} {p : α → Bool} {t l m r : List α}

def trim (p : α → Bool) (t : List α) : List α := (t.dropWhile p).rdropWhile p

theorem dropWhile_append_self (h : m.dropWhile p = m) :
    (l ++ m).dropWhile p = l.dropWhile p ++ m := by
  rw [List.dropWhile_append]
  split
  · next hl => rw [h, List.isEmpty_iff.mp hl, List.nil_append]
  · rfl

theorem rdropWhile_append_self (h : m.rdropWhile p = m) :
    (m ++ r).rdropWhile p = m ++ r.rdropWhile p := by
  have hreverse : m.reverse.dropWhile p = m.reverse := List.reverse_eq_iff.mp h
  rw [List.rdropWhile, List.reverse_append, dropWhile_append_self hreverse, List.reverse_append,
    List.reverse_reverse, List.rdropWhile]

section

variable (p : α → Bool) (t : List α)

theorem exists_eq_append : ∃ l r, t = l ++ trim p t ++ r ∧
    (∀ x ∈ l, p x) ∧ ∀ x ∈ r, p x := by
  refine ⟨t.takeWhile p, (t.dropWhile p).rtakeWhile p, ?_, fun x hx => ?_, fun x hx => ?_⟩
  · rw [List.append_assoc, trim, List.rdropWhile_append_rtakeWhile,
      List.takeWhile_append_dropWhile]
  · exact List.mem_takeWhile_imp hx
  · exact List.mem_rtakeWhile_imp hx

theorem dropWhile_trim : (trim p t).dropWhile p = trim p t := by
  refine List.dropWhile_eq_self_iff.mpr fun hpos => ?_
  have hfront : trim p t <+: t.dropWhile p := List.rdropWhile_prefix p _
  have hlt : 0 < (t.dropWhile p).length := hpos.trans_le hfront.length_le
  rw [hfront.getElem hpos]
  exact List.dropWhile_eq_self_iff.mp (List.dropWhile_idempotent p t) hlt

theorem rdropWhile_trim : (trim p t).rdropWhile p = trim p t :=
  List.rdropWhile_idempotent p _

theorem trim_trim : trim p (trim p t) = trim p t := by
  have hleft := dropWhile_trim p t
  rw [trim, hleft, rdropWhile_trim]

end

theorem trim_append_append (h : trim p m = m) (hne : m ≠ []) :
    trim p (l ++ m ++ r) = l.dropWhile p ++ m ++ r.rdropWhile p := by
  have hleft : m.dropWhile p = m := by
    rw [← h]
    exact dropWhile_trim p m
  have hright : m.rdropWhile p = m := by
    rw [← h]
    exact rdropWhile_trim p m
  obtain ⟨x, rest, rfl⟩ := List.exists_cons_of_ne_nil hne
  have hx : ¬ p x := by
    intro hx
    have hlength := congrArg List.length hleft
    rw [List.dropWhile_cons_of_pos hx, List.length_cons] at hlength
    have hle := (List.dropWhile_suffix p (l := rest)).length_le
    omega
  have hkept : (x :: rest ++ r).dropWhile p = x :: rest ++ r := by
    rw [List.cons_append, List.dropWhile_cons_of_neg hx]
  have hlast : (l.dropWhile p ++ (x :: rest)).rdropWhile p = l.dropWhile p ++ (x :: rest) := by
    rw [List.rdropWhile_eq_self_iff] at hright ⊢
    intro hne'
    rw [List.getLast_append_of_ne_nil hne' hne]
    exact hright hne
  rw [trim, List.append_assoc, dropWhile_append_self hkept, ← List.append_assoc,
    rdropWhile_append_self hlast]

theorem trim_eq_nil_iff : trim p t = [] ↔ ∀ x ∈ t, p x := by
  rw [trim, List.rdropWhile_eq_nil_iff]
  constructor
  · intro h x hx
    rw [← List.takeWhile_append_dropWhile (p := p) (l := t)] at hx
    obtain hx | hx := List.mem_append.mp hx
    · exact List.mem_takeWhile_imp hx
    · exact h x hx
  · exact fun h x hx => h x ((List.dropWhile_sublist p).subset hx)

theorem trim_infix_trim (h : m <:+: t) : trim p m <:+: trim p t := by
  by_cases hne : trim p m = []
  · rw [hne]
    exact List.nil_infix
  · obtain ⟨l, r, rfl⟩ := h
    obtain ⟨l', r', heq, -, -⟩ := exists_eq_append p m
    have hwhole : l ++ m ++ r = (l ++ l') ++ trim p m ++ (r' ++ r) :=
      calc l ++ m ++ r = l ++ (l' ++ trim p m ++ r') ++ r := congrArg (fun m => l ++ m ++ r) heq
        _ = (l ++ l') ++ trim p m ++ (r' ++ r) := by simp only [List.append_assoc]
    rw [hwhole, trim_append_append (trim_trim p m) hne]
    exact ⟨_, _, rfl⟩

theorem trim_append_of_all (hr : ∀ x ∈ r, p x) : trim p (t ++ r) = trim p t := by
  by_cases hne : trim p t = []
  · rw [hne, trim_eq_nil_iff]
    intro x hx
    obtain hx | hx := List.mem_append.mp hx
    · exact trim_eq_nil_iff.mp hne x hx
    · exact hr x hx
  · obtain ⟨l, r', heq, hl, hr'⟩ := exists_eq_append p t
    have hwhole : t ++ r = l ++ trim p t ++ (r' ++ r) := by
      rw [← List.append_assoc, ← heq]
    have hdropped : (r' ++ r).rdropWhile p = [] := List.rdropWhile_eq_nil_iff.mpr fun x hx =>
      (List.mem_append.mp hx).elim (hr' x) (hr x)
    rw [hwhole, trim_append_append (trim_trim p t) hne, List.dropWhile_eq_nil_iff.mpr hl, hdropped,
      List.nil_append, List.append_nil]

end TextTrim

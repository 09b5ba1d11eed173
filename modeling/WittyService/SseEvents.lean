import Mathlib.Algebra.Order.BigOperators.Group.List
import Mathlib.Algebra.Order.Group.Nat
import WittyService.ChannelCredentialStore
import WittyService.JsonScan

/-! `OpenCodeClient._iter_sse_events`: the JSON events of a stream, line by line. The lines are
those of `str.splitlines`, which JSON texts may contain the ends of. -/
namespace WittyService

open CodeLines JsonText Utf8Text

namespace SseEvents

/-- `json.loads`, none for a `JSONDecodeError`. -/
def jsonLoads (t : CodePoints) : Option JsonText.Value :=
  (JsonText.loads t).map JsonText.Value.asDict

/-- `_iter_sse_events` of the lines of a response. -/
def iterSseEvents (lines : List CodePoints) : List JsonText.Value :=
  lines.filterMap fun line =>
    if (text "data: ").isPrefixOf line then jsonLoads (line.drop 6) else none

def sent (t : CodePoints) : CodePoints := text "data: " ++ t ++ [10, 10]

/-- A JSON text of an object, on one line. -/
structure IsText (t : CodePoints) (object : JsonText.Value) : Prop where
  loads : JsonText.loads t = some object
  dict : object.asDict = object
  object : ∃ members, object = .obj members
  oneLine : ∀ c ∈ t, c ≠ 10 ∧ c ≠ 13

def hasLineEnd (v : JsonText.Value) : Bool := v.chars.any isLineEnd

variable {t rest : CodePoints} {object : JsonText.Value} {c : ℕ}

theorem iterSseEvents_append (l l' : List CodePoints) :
    iterSseEvents (l ++ l') = iterSseEvents l ++ iterSseEvents l' := List.filterMap_append

theorem iterSseEvents_cons (l : CodePoints) (l' : List CodePoints) :
    iterSseEvents (l :: l') = iterSseEvents [l] ++ iterSseEvents l' := by
  rw [← iterSseEvents_append, List.singleton_append]

theorem iterSseEvents_data (t : CodePoints) :
    iterSseEvents [text "data: " ++ t] = (jsonLoads t).toList := by
  have hprefix : (text "data: ").isPrefixOf (text "data: " ++ t) = true :=
    List.isPrefixOf_iff_prefix.mpr (List.prefix_append _ _)
  have hdrop : (text "data: " ++ t).drop 6 = t := rfl
  rw [iterSseEvents, List.filterMap_cons, if_pos hprefix, hdrop]
  cases jsonLoads t <;> rfl

def heard (t : CodePoints) : List JsonText.Value :=
  iterSseEvents (splitlines (text "data: " ++ t ++ [10]))

theorem iterSseEvents_sent (t rest : CodePoints) :
    iterSseEvents (splitlines (sent t ++ rest)) =
      heard t ++ iterSseEvents (splitlines rest) := by
  have htext : sent t ++ rest = (text "data: " ++ t) ++ 10 :: (10 :: rest) := by simp [sent]
  rw [htext, splitlines_append, splitlines_break rest rfl (by decide), iterSseEvents_append,
    iterSseEvents_cons []]
  rfl

theorem iterSseEvents_all (events : List CodePoints) :
    iterSseEvents (splitlines (events.flatMap sent)) = events.flatMap heard := by
  induction events with
  | nil => rfl
  | cons t events ih => rw [List.flatMap_cons, List.flatMap_cons, iterSseEvents_sent, ih]

theorem isWideEnd_of_oneLine (hend : isLineEnd c = true) (h : c ≠ 10 ∧ c ≠ 13) :
    isWideEnd c = true := by
  simp [isWideEnd, hend, h.1, h.2]

theorem heard_of_clean (h : IsText t object) (hclean : ∀ c ∈ t, isLineEnd c = false) :
    heard t = [object] := by
  have hline : ∀ c ∈ text "data: " ++ t, isLineEnd c = false := by
    intro c hc
    rcases List.mem_append.mp hc with hc | hc
    · have hdata := List.all_eq_true.mp
        (show ((text "data: ").all fun c => !isLineEnd c) = true by decide) c hc
      simpa using hdata
    · exact hclean c hc
  have hlines := splitlines_line [] hline (show isLineEnd 10 = true by decide) (by decide)
  rw [heard, hlines]
  change iterSseEvents [text "data: " ++ t] = _
  rw [iterSseEvents_data, jsonLoads, h.loads, Option.map_some, h.dict]
  rfl

theorem inside_of_wide {m : Mode} {q : CodePoints} (hwide : isWideEnd c = true)
    (h : (scan m (c :: q)).isSome) : m = .inside ∧ (scan .inside q).isSome := by
  have hquote : c ≠ 34 := by
    rintro rfl
    cases hwide
  have hslash : c ≠ 92 := by
    rintro rfl
    cases hwide
  rw [scan_cons] at h
  cases m with
  | outside =>
    rw [Mode.next.eq_1, if_neg hquote, if_pos (Or.inr hwide)] at h
    cases h
  | inside =>
    rw [Mode.next.eq_2, if_neg hquote, if_neg hslash] at h
    exact ⟨rfl, h⟩
  | escape =>
    rw [Mode.next.eq_3, if_pos hwide] at h
    cases h

theorem split_at_end (hbroken : ∃ c ∈ t, isLineEnd c = true) :
    ∃ line e q, t = line ++ e :: q ∧ (∀ c ∈ line, isLineEnd c = false) ∧ isLineEnd e = true := by
  induction t with
  | nil =>
    obtain ⟨c, hc, -⟩ := hbroken
    cases hc
  | cons c t ih =>
    by_cases hc : isLineEnd c = true
    · exact ⟨[], c, t, rfl, (fun x hx => by cases hx), hc⟩
    · obtain ⟨c', hc', hend⟩ := hbroken
      rcases List.mem_cons.mp hc' with rfl | hmem
      · exact absurd hend hc
      · obtain ⟨line, e, q, rfl, hline, he⟩ := ih ⟨c', hmem, hend⟩
        refine ⟨c :: line, e, q, rfl, ?_, he⟩
        exact List.forall_mem_cons.mpr ⟨Bool.eq_false_iff.mpr hc, hline⟩

theorem lines_inside (hline : ∀ c ∈ t, c ≠ 10 ∧ c ≠ 13) (hscan : (scan .inside t).isSome) :
    ∀ line ∈ splitlines (t ++ [10]),
      (∀ c ∈ line, isLineEnd c = false) ∧ (scan .inside line).isSome := by
  induction hn : t.length using Nat.strong_induction_on generalizing t with
  | _ n ih =>
    by_cases hbroken : ∃ c ∈ t, isLineEnd c = true
    · obtain ⟨line, e, q, rfl, hclean, he⟩ := split_at_end hbroken
      have hmem : e ∈ line ++ e :: q := List.mem_append_right _ List.mem_cons_self
      have hwide := isWideEnd_of_oneLine he (hline e hmem)
      have hlines := splitlines_line (q ++ [10]) hclean he (hline e hmem).2
      rw [scan_append] at hscan
      obtain ⟨m, hm⟩ := Option.isSome_iff_exists.mp (Option.isSome_of_isSome_bind hscan)
      rw [hm, Option.bind_some] at hscan
      obtain ⟨rfl, hq⟩ := inside_of_wide hwide hscan
      rw [List.append_assoc, List.cons_append, hlines, List.forall_mem_cons]
      refine ⟨⟨hclean, by rw [hm]; rfl⟩, ?_⟩
      apply ih q.length _ _ hq rfl
      · rw [← hn, List.length_append, List.length_cons]
        omega
      · exact fun c hc => hline c (List.mem_append_right _ (List.mem_cons_of_mem _ hc))
    · have hclean : ∀ c ∈ t, isLineEnd c = false := fun c hc =>
        Bool.eq_false_iff.mpr fun hend => hbroken ⟨c, hc, hend⟩
      rw [splitlines_line [] hclean (show isLineEnd 10 = true by decide) (by decide)]
      exact List.forall_mem_cons.mpr ⟨⟨hclean, hscan⟩, fun line h => by cases h⟩

theorem hasLineEnd_of_inside {line : CodePoints} (hclean : ∀ c ∈ line, isLineEnd c = false)
    (hscan : (scan .inside line).isSome) {v : JsonText.Value} (hv : v ∈ iterSseEvents [line]) :
    hasLineEnd v = false := by
  rw [iterSseEvents, List.filterMap_cons] at hv
  by_cases hprefix : (text "data: ").isPrefixOf line = true
  · obtain ⟨p, rfl⟩ := List.isPrefixOf_iff_prefix.mp hprefix
    have hv' : v ∈ iterSseEvents [text "data: " ++ p] := by
      rw [iterSseEvents, List.filterMap_cons]
      exact hv
    rw [iterSseEvents_data, Option.mem_toList, jsonLoads, Option.map_eq_some_iff] at hv'
    obtain ⟨written, hloads, rfl⟩ := hv'
    have hwritten := loads_scanned hloads
    rw [scan_append] at hscan
    have hdata : scan .inside (text "data: ") = some .inside := by decide
    rw [hdata, Option.bind_some] at hscan
    have hslash := no_backslash hscan (by rw [hwritten.scan]; rfl)
    rw [hasLineEnd, List.any_eq_false]
    intro c hc hend
    have hmem := hwritten.raw hslash c (written.mem_chars_of_asDict hc) hend
    have hfalse := hclean c (List.mem_append_right _ hmem)
    rw [hend] at hfalse
    cases hfalse
  · rw [if_neg hprefix] at hv
    cases hv

theorem heard_of_broken (h : IsText t object) (hbroken : ∃ c ∈ t, isLineEnd c = true) :
    hasLineEnd object = true ∧ ∀ v ∈ heard t, hasLineEnd v = false := by
  have hobject := loads_scanned h.loads
  constructor
  · obtain ⟨c, hc, hend⟩ := hbroken
    rw [hasLineEnd, List.any_eq_true]
    exact ⟨c, hobject.kept c hc (isWideEnd_of_oneLine hend (h.oneLine c hc)), hend⟩
  · obtain ⟨line, e, q, rfl, hclean, he⟩ := split_at_end hbroken
    have hmem : e ∈ line ++ e :: q := List.mem_append_right _ List.mem_cons_self
    have hscan := hobject.scan
    rw [scan_append] at hscan
    obtain ⟨m, hm, hrest⟩ := Option.bind_eq_some_iff.mp hscan
    obtain ⟨rfl, hq⟩ := inside_of_wide (isWideEnd_of_oneLine he (h.oneLine e hmem))
      (show (scan m (e :: q)).isSome by rw [hrest]; rfl)
    -- the first line is cut off inside of a string
    have hfirst : jsonLoads line = none := by
      cases hloads : JsonText.loads line with
      | none => rw [jsonLoads, hloads, Option.map_none]
      | some j =>
        have hwhole := (loads_scanned hloads).scan
        rw [hm] at hwhole
        cases hwhole
    have hdata : ∀ c ∈ text "data: " ++ line, isLineEnd c = false := by
      intro c hc
      rcases List.mem_append.mp hc with hc | hc
      · have hletter := List.all_eq_true.mp
          (show ((text "data: ").all fun c => !isLineEnd c) = true by decide) c hc
        simpa using hletter
      · exact hclean c hc
    have hsplit : text "data: " ++ (line ++ e :: q) ++ [10] =
        (text "data: " ++ line) ++ e :: (q ++ [10]) := by simp
    rw [heard, hsplit, splitlines_line _ hdata he (h.oneLine e hmem).2, iterSseEvents_cons,
      iterSseEvents_data, hfirst]
    intro v hv
    obtain ⟨l, hl, hv⟩ := List.mem_filterMap.mp hv
    have hinside := lines_inside
      (fun c hc => h.oneLine c (List.mem_append_right _ (List.mem_cons_of_mem _ hc))) hq l hl
    apply hasLineEnd_of_inside hinside.1 hinside.2
    rw [iterSseEvents, List.filterMap_cons, hv]
    exact List.mem_cons_self

theorem countP_heard (h : IsText t object) :
    (heard t).countP hasLineEnd ≤ [object].countP hasLineEnd ∧
      ((∃ c ∈ t, isLineEnd c = true) →
        (heard t).countP hasLineEnd < [object].countP hasLineEnd) := by
  by_cases hbroken : ∃ c ∈ t, isLineEnd c = true
  · obtain ⟨hobject, hheard⟩ := heard_of_broken h hbroken
    have hzero : (heard t).countP hasLineEnd = 0 :=
      List.countP_eq_zero.mpr fun v hv => by rw [hheard v hv]; exact Bool.false_ne_true
    rw [hzero, List.countP_singleton, if_pos hobject]
    exact ⟨Nat.zero_le 1, fun _ => Nat.one_pos⟩
  · have hclean : ∀ c ∈ t, isLineEnd c = false := fun c hc =>
      Bool.eq_false_iff.mpr fun hend => hbroken ⟨c, hc, hend⟩
    rw [heard_of_clean h hclean]
    exact ⟨Nat.le_refl _, fun hex => absurd hex hbroken⟩

def written (key s : CodePoints) : CodePoints := renderObject [(key, renderString s)]

theorem isText_written {key s : CodePoints} (hkey : ∀ c ∈ key, ¬ IsSurrogate c)
    (hs : ∀ c ∈ s, ¬ IsSurrogate c) : IsText (written key s) (.obj [(key, .str s)]) where
  loads := by
    have hmember : ∀ m ∈ [Member.mk key (renderString s) (.str s)], m.Readable 1 := by
      intro m hm
      rw [List.mem_singleton.mp hm]
      exact ⟨hkey, reads_string hs⟩
    apply loads_of_reads (reads_object hmember)
    · simp only [renderObject, List.map_cons, List.map_nil, List.length_cons, List.length_append]
      omega
    · simp [renderObject]
  dict := rfl
  object := ⟨_, rfl⟩
  oneLine x hx := by
    have hsplit : written key s =
        123 :: (renderString key ++ text ": " ++ renderString s) ++ [125] := by
      simp [written, renderObject, List.intercalate]
    rw [hsplit] at hx
    simp only [List.cons_append, List.mem_cons, List.mem_append, List.not_mem_nil, or_false] at hx
    rcases hx with rfl | ((hx | hx) | hx) | rfl
    · decide
    · exact renderString_oneLine key x hx
    · have hcolon := List.all_eq_true.mp
        (show ((text ": ").all fun c => c ≠ 10 && c ≠ 13) = true by decide) x hx
      simpa using hcolon
    · exact renderString_oneLine s x hx
    · decide

end SseEvents

end WittyService

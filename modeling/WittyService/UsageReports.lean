import Mathlib.Data.List.TakeWhile
import WittyService.UsageEmission

/-! When a turn reports its usage once and in full. -/
namespace WittyService

section
variable (plus : NumberAdd)

/-- Adding the payload to the sum of what was reported changes no field of it. -/
def AddsNothing (reported : List Dict) (payload : Dict) : Prop :=
  ∀ kv ∈ payload, ∃ current, fieldSum plus reported kv.1 = some current ∧
    plus.add current kv.2 = current

def beforeTerminal (items : List RuntimeTurnEvent) : List RuntimeTurnEvent :=
  items.takeWhile fun item => !item.isTerminal

def fromTerminal (items : List RuntimeTurnEvent) : List RuntimeTurnEvent :=
  items.dropWhile fun item => !item.isTerminal

/-- The usage event is sent with this mapped event. -/
def SentWith (pre : List RuntimeTurnEvent) (item : RuntimeTurnEvent) : Prop :=
  (emitAll plus.add pre).usageEmitted = false ∧
    (emitAll plus.add (pre ++ [item])).usageEmitted = true

/-- The usage of a turn is sent once, before the first terminal event, whenever any was reported
before it. What is sent is the sum of what was reported up to then, and stays so. -/
structure UsageReportedOnce (items : List RuntimeTurnEvent) (emitted : List Emitted)
    (raised : Bool) : Prop where
  once : emitted.countP Emitted.isUsage ≤ 1
  early : ∀ pre post, emitted = pre ++ .usage :: post → ∀ e ∈ pre, e.isTerminal = false
  content : ∀ pre item post, items = pre ++ item :: post → SentWith plus pre item →
    ∀ later, later <+: post → ∀ key,
      Dict.get (emitAll plus.add (pre ++ item :: later)).usageTotal key =
        fieldSum plus (usages plus pre) key
  contentAtEnd : raised = false → (emitAll plus.add items).usageEmitted = false → ∀ key,
    Dict.get (emitAll plus.add items).usageTotal key = fieldSum plus (usages plus items) key
  sent : (∃ item ∈ beforeTerminal items, item.reports plus) → .usage ∈ emitted

/-- No usage that counts is reported after the first terminal event, and no transport error comes
between a report and the first terminal event. -/
def UsageInTime (items : List RuntimeTurnEvent) (raised : Bool) : Prop :=
  match fromTerminal items with
  | [] => raised = true → ∀ item ∈ items, item.reports plus = false
  | _ :: after =>
    if ∃ item ∈ beforeTerminal items, item.reports plus then
      ∀ item ∈ after, item.isUsage →
        AddsNothing plus (usages plus (beforeTerminal items)) (item.usage plus)
    else
      (raised = false → ∀ item ∈ after, item.reports plus = false) ∧
        ∀ pre item post, after = pre ++ item :: post → item.reports plus →
          ∀ other ∈ post, other.isTerminal = false

variable {plus} {items pre post : List RuntimeTurnEvent} {item : RuntimeTurnEvent}

variable {ρ σ τ : Type} (h : RuntimeHooks ρ σ τ) (raws : List ρ) (raised : Bool)

variable (plus) in
theorem emitted_runTurn :
    ∃ rest, (h.runTurn plus.add raws raised).emitted =
        (emitAll plus.add (h.turn raws).items).emitted ++ rest ∧
      (if h.leftEarly raws raised = false ∧
            (emitAll plus.add (h.turn raws).items).usageTotal ≠ [] ∧
            (emitAll plus.add (h.turn raws).items).usageEmitted = false then rest = [.usage]
        else ∀ e ∈ rest, e.isUsage = false) := by
  unfold RuntimeHooks.runTurn RuntimeHooks.leftEarly
  dsimp only
  cases (h.turn raws).crashed with
  | true =>
    refine ⟨[], (List.append_nil _).symm, ?_⟩
    rw [if_neg fun hno => nomatch hno.1]
    exact fun e he => absurd he List.not_mem_nil
  | false =>
    rw [if_neg Bool.false_ne_true, Bool.false_or]
    cases raised with
    | true =>
      refine ⟨_, rfl, ?_⟩
      rw [if_neg fun hno => nomatch hno.1]
      intro e he
      obtain ⟨event, hevent, rfl⟩ := List.mem_map.mp he
      exact h.errorEvents_noUsage _ event hevent
    | false =>
      rw [if_neg Bool.false_ne_true]
      split_ifs with hsend hcond hcond
      · exact ⟨_, rfl, rfl⟩
      · simp only [Bool.and_eq_true, Bool.not_eq_true', List.isEmpty_eq_false_iff] at hsend
        exact absurd ⟨rfl, hsend⟩ hcond
      · simp only [Bool.and_eq_true, Bool.not_eq_true', List.isEmpty_eq_false_iff] at hsend
        exact absurd hcond.2 hsend
      · exact ⟨[], (List.append_nil _).symm, fun e he => absurd he List.not_mem_nil⟩

theorem countP_runTurn :
    (h.runTurn plus.add raws raised).emitted.countP Emitted.isUsage ≤ 1 := by
  obtain ⟨rest, heq, hrest⟩ := emitted_runTurn plus h raws raised
  rw [heq, List.countP_append, countP_emitAll]
  split_ifs at hrest with hsend
  · rw [hrest, hsend.2.2]
    exact Nat.le_refl 1
  · rw [List.countP_eq_zero.mpr fun e he => Bool.eq_false_iff.mp (hrest e he)]
    split_ifs
    · exact Nat.le_refl 1
    · exact Nat.zero_le 1

theorem usage_mem_runTurn :
    .usage ∈ (h.runTurn plus.add raws raised).emitted ↔
      (emitAll plus.add (h.turn raws).items).usageEmitted = true ∨
        (h.leftEarly raws raised = false ∧
          (emitAll plus.add (h.turn raws).items).usageTotal ≠ []) := by
  obtain ⟨rest, heq, hrest⟩ := emitted_runTurn plus h raws raised
  rw [heq, List.mem_append, usage_mem_emitAll]
  split_ifs at hrest with hsend
  · rw [hrest]
    exact ⟨fun _ => .inr ⟨hsend.1, hsend.2.1⟩, fun _ => .inr List.mem_cons_self⟩
  · constructor
    · rintro (hsent | hmem)
      · exact .inl hsent
      · exact absurd (hrest _ hmem) nofun
    · rintro (hsent | ⟨hraised, hne⟩)
      · exact .inl hsent
      · left
        by_contra hnot
        rw [Bool.not_eq_true] at hnot
        exact hsend ⟨hraised, hne, hnot⟩

theorem early_of_eq {emitted before after : List Emitted}
    (heq : emitted = before ++ .usage :: after) (hcount : emitted.countP Emitted.isUsage ≤ 1)
    (hbefore : ∀ e ∈ before, e.isTerminal = false) (pre post : List Emitted)
    (hsplit : emitted = pre ++ .usage :: post) : ∀ e ∈ pre, e.isTerminal = false := by
  have hpre : before = pre :=
    eq_of_countP_le_one (p := Emitted.isUsage) rfl rfl (heq.symm.trans hsplit) (heq ▸ hcount)
  rw [← hpre]
  exact hbefore

/-! The mapped events before and from the first terminal one on. -/

theorem items_eq (items : List RuntimeTurnEvent) :
    beforeTerminal items ++ fromTerminal items = items := List.takeWhile_append_dropWhile

theorem not_terminal_before : ∀ item ∈ beforeTerminal items, item.isTerminal = false := by
  intro item hitem
  have hnot := List.mem_takeWhile_imp hitem
  rw [Bool.not_eq_true'] at hnot
  exact hnot

variable {before after : List RuntimeTurnEvent} {first : RuntimeTurnEvent}

theorem terminal_of_from (h : fromTerminal items = first :: after) : first.isTerminal := by
  have hhead := List.head?_dropWhile_not (fun item : RuntimeTurnEvent => !item.isTerminal) items
  rw [fromTerminal] at h
  rw [h] at hhead
  simpa using hhead

theorem extends_of_prefix {r : RuntimeTurnEvent}
    (h : pre <+: before ++ first :: after) (hr : r ∈ pre) (hbefore : r ∉ before)
    (hfirst : r ≠ first) : ∃ rest, pre = before ++ first :: rest ∧ rest <+: after ∧ r ∈ rest := by
  obtain ⟨tail, htail⟩ := h
  obtain ⟨rest, hrest, hafter⟩ | ⟨rest, hpre, hafter⟩ := List.append_eq_append_iff.mp htail
  · exact absurd (hrest ▸ List.mem_append_left rest hr) hbefore
  · cases rest with
    | nil =>
      rw [List.append_nil] at hpre
      exact absurd (hpre ▸ hr) hbefore
    | cons x rest =>
      rw [List.cons_append, List.cons.injEq] at hafter
      obtain ⟨rfl, rfl⟩ := hafter
      refine ⟨rest, hpre, List.prefix_append rest tail, ?_⟩
      rw [hpre] at hr
      obtain hr | hr := List.mem_append.mp hr
      · exact absurd hr hbefore
      · exact (List.mem_cons.mp hr).resolve_left hfirst

theorem reported_iff_of_nil (hfrom : fromTerminal (h.turn raws).items = []) :
    UsageReportedOnce plus (h.turn raws).items (h.runTurn plus.add raws raised).emitted
      (h.leftEarly raws raised) ↔
      (h.leftEarly raws raised = true →
        ∀ item ∈ (h.turn raws).items, item.reports plus = false) := by
  have hbefore : beforeTerminal (h.turn raws).items = (h.turn raws).items := by
    have heq := items_eq (h.turn raws).items
    rwa [hfrom, List.append_nil] at heq
  have hterminal : ∀ item ∈ (h.turn raws).items, item.isTerminal = false := by
    rw [← hbefore]
    exact not_terminal_before
  have hnotSent : ¬ (emitAll plus.add (h.turn raws).items).usageEmitted = true := by
    rw [usageEmitted_iff]
    rintro ⟨pre, item, hinitial, hitem, -⟩
    rw [hterminal item (hinitial.subset (List.mem_append_right pre List.mem_cons_self))] at hitem
    cases hitem
  constructor
  · intro hr hraised item hitem
    rw [← Bool.not_eq_true]
    intro hreports
    obtain hsent | ⟨hno, -⟩ := (usage_mem_runTurn h raws raised).mp
      (hr.sent ⟨item, hbefore.symm ▸ hitem, hreports⟩)
    · exact hnotSent hsent
    · rw [hraised] at hno
      cases hno
  · intro hnone
    refine ⟨countP_runTurn h raws raised, ?_, ?_, fun _ _ key => (get_usageTotal _ key).2, ?_⟩
    · intro pre post hsplit
      obtain ⟨rest, heq, hrest⟩ := emitted_runTurn plus h raws raised
      have hearly : ∀ e ∈ (emitAll plus.add _).emitted, e.isTerminal = false ∧ e.isUsage = false :=
        emitted_of_early hterminal
      split_ifs at hrest with hsend
      · rw [hrest] at heq
        exact early_of_eq heq (countP_runTurn h raws raised) (fun e he => (hearly e he).1) pre post
          hsplit
      · have hmem : Emitted.usage ∈ (h.runTurn plus.add raws raised).emitted :=
          hsplit ▸ List.mem_append_right pre List.mem_cons_self
        rw [heq, List.mem_append] at hmem
        obtain hmem | hmem := hmem
        · exact absurd (hearly _ hmem).2 nofun
        · exact absurd (hrest _ hmem) nofun
    · intro pre item post hsplit hwith
      refine absurd ?_ hnotSent
      have hinitial : pre ++ [item] <+: (h.turn raws).items := ⟨post, by
        rw [hsplit, List.append_assoc]
        rfl⟩
      obtain ⟨p, x, hpx, hx⟩ := (usageEmitted_iff _).mp hwith.2
      exact (usageEmitted_iff _).mpr ⟨p, x, hpx.trans hinitial, hx⟩
    · rintro ⟨item, hitem, hreports⟩
      rw [hbefore] at hitem
      refine (usage_mem_runTurn h raws raised).mpr (.inr ⟨?_, fun hempty => ?_⟩)
      · by_contra hraised
        rw [Bool.not_eq_false] at hraised
        rw [hnone hraised item hitem] at hreports
        cases hreports
      · rw [(usageTotal_isEmpty _).mp hempty item hitem] at hreports
        cases hreports

theorem get_usageTotal_later (before later : List RuntimeTurnEvent)
    (first item : RuntimeTurnEvent) (key : String) :
    Dict.get (emitAll plus.add (before ++ first :: (later ++ [item]))).usageTotal key =
      if item.isUsage then
        addField plus (Dict.get (emitAll plus.add (before ++ first :: later)).usageTotal key)
          (Dict.get (item.usage plus) key)
      else Dict.get (emitAll plus.add (before ++ first :: later)).usageTotal key := by
  have heq : before ++ first :: (later ++ [item]) = (before ++ first :: later) ++ [item] := by
    rw [List.append_assoc, List.cons_append]
  rw [heq, emitAll_concat, usageTotal_emit]
  split_ifs
  · exact get_mergeUsage plus (get_usageTotal _ key).1 (numeric_normalizeUsagePayload plus _) key
  · rfl

theorem usageTotal_first (hfirst : first.isTerminal) :
    (emitAll plus.add (before ++ [first])).usageTotal = (emitAll plus.add before).usageTotal := by
  rw [emitAll_concat, usageTotal_emit, not_isUsage_of_terminal hfirst, if_neg Bool.false_ne_true]

theorem content_iff (hfirst : first.isTerminal) : (∀ later, later <+: after → ∀ key,
        Dict.get (emitAll plus.add (before ++ first :: later)).usageTotal key =
          Dict.get (emitAll plus.add before).usageTotal key) ↔
      ∀ item ∈ after, item.isUsage →
        AddsNothing plus (usages plus before) (item.usage plus) := by
  constructor
  · intro h item hitem husage kv hkv
    obtain ⟨later, rest, rfl⟩ := List.append_of_mem hitem
    have hnow := h later (List.prefix_append later _) kv.1
    have hnext := h (later ++ [item]) ⟨rest, by rw [List.append_assoc]; rfl⟩ kv.1
    have hown : Dict.get (item.usage plus) kv.1 = some kv.2 :=
      (numeric_normalizeUsagePayload plus item.payload).get_of_mem hkv
    rw [get_usageTotal_later, if_pos husage, hnow, hown, (get_usageTotal before kv.1).2] at hnext
    cases hcurrent : fieldSum plus (usages plus before) kv.1 with
    | none =>
      rw [hcurrent] at hnext
      cases hnext
    | some current =>
      rw [hcurrent] at hnext
      exact ⟨current, rfl, Option.some.inj hnext⟩
  · intro h later hlater key
    induction later using List.reverseRecOn with
    | nil => rw [usageTotal_first hfirst]
    | append_singleton later item ih =>
      have hmem : item ∈ after := hlater.subset (List.mem_append_right later List.mem_cons_self)
      have hlast := ih ((List.prefix_append later [item]).trans hlater)
      rw [get_usageTotal_later, hlast]
      split_ifs with husage
      · cases hget : Dict.get (item.usage plus) key with
        | none => cases Dict.get (emitAll plus.add before).usageTotal key <;> rfl
        | some value =>
          obtain ⟨kv, hfind, hvalue⟩ := Option.map_eq_some_iff.mp hget
          have hkv := List.mem_reverse.mp (List.mem_of_find?_eq_some hfind)
          have hkey : kv.1 = key := eq_of_beq
            (List.find?_some (p := fun kv : String × Json => kv.1 == key) hfind)
          obtain ⟨current, hcurrent, hadd⟩ := h item hmem husage kv hkv
          rw [hkey] at hcurrent
          rw [hvalue] at hadd
          rw [(get_usageTotal before key).2, hcurrent, addField, hadd]
      · rfl

theorem sentWith_first
    (hbefore : ∀ item ∈ before, item.isTerminal = false) (hfirst : first.isTerminal)
    (hreports : ∃ item ∈ before, item.reports plus) :
    SentWith plus before first ∧ (emitAll plus.add (before ++ [first])).emitted =
      (emitAll plus.add before).emitted ++ [.usage, .event first] := by
  have hnot : (emitAll plus.add before).usageEmitted = false := by
    rw [← Bool.not_eq_true, usageEmitted_iff]
    rintro ⟨pre, item, hinitial, hitem, -⟩
    rw [hbefore item (hinitial.subset (List.mem_append_right pre List.mem_cons_self))] at hitem
    cases hitem
  have hne : (emitAll plus.add before).usageTotal ≠ [] := by
    rw [Ne, usageTotal_isEmpty]
    obtain ⟨item, hitem, hreports⟩ := hreports
    intro hnone
    rw [hnone item hitem] at hreports
    cases hreports
  obtain ⟨husage, -⟩ | ⟨-, -, heq⟩ | ⟨-, hno, -⟩ := emit_cases (emitAll plus.add before) first
  · rw [not_isUsage_of_terminal hfirst] at husage
    cases husage
  · rw [SentWith, emitAll_concat, heq]
    exact ⟨⟨hnot, rfl⟩, rfl⟩
  · exact absurd ⟨hfirst, hne, hnot⟩ hno

theorem eq_of_sentWith (hbefore : ∀ item ∈ before, item.isTerminal = false)
    (hsent : (emitAll plus.add (before ++ [first])).usageEmitted = true)
    (h : SentWith plus pre item) (hsplit : before ++ first :: after = pre ++ item :: post) :
    before = pre ∧ first = item ∧ after = post := by
  have hmono {xs ys : List RuntimeTurnEvent} (hinitial : xs <+: ys)
      (hxs : (emitAll plus.add xs).usageEmitted = true) :
      (emitAll plus.add ys).usageEmitted = true := by
    obtain ⟨p, x, hpx, hx⟩ := (usageEmitted_iff xs).mp hxs
    exact (usageEmitted_iff ys).mpr ⟨p, x, hpx.trans hinitial, hx⟩
  have hterminal : item.isTerminal := by
    have hwith := h.2
    rw [emitAll_concat, usageEmitted_emit, h.1] at hwith
    exact (hwith.resolve_left Bool.false_ne_true).1
  obtain ⟨rest, hrest, hafter⟩ | ⟨rest, hrest, hafter⟩ := List.append_eq_append_iff.mp hsplit
  · cases rest with
    | nil =>
      rw [List.append_nil] at hrest
      rw [List.nil_append, List.cons.injEq] at hafter
      exact ⟨hrest.symm, hafter⟩
    | cons x rest =>
      rw [List.cons_append, List.cons.injEq] at hafter
      have hpre : before ++ [first] <+: pre := ⟨rest, by
        rw [hrest, hafter.1, List.append_assoc]
        rfl⟩
      have hearlier := hmono hpre hsent
      rw [h.1] at hearlier
      cases hearlier
  · cases rest with
    | nil =>
      rw [List.append_nil] at hrest
      rw [List.nil_append, List.cons.injEq] at hafter
      exact ⟨hrest, hafter.1.symm, hafter.2.symm⟩
    | cons x rest =>
      rw [List.cons_append, List.cons.injEq] at hafter
      have hmem : item ∈ before := by
        rw [hrest, hafter.1]
        exact List.mem_append_right pre List.mem_cons_self
      rw [hbefore item hmem] at hterminal
      cases hterminal

section

variable {first : RuntimeTurnEvent} {after : List RuntimeTurnEvent}
  (hfrom : fromTerminal (h.turn raws).items = first :: after)
include hfrom

/-- Usage reported before the first terminal event is sent with it, and may only be followed by
reports that add nothing. -/
theorem reported_iff_of_reports
    (hreports : ∃ item ∈ beforeTerminal (h.turn raws).items, item.reports plus) :
    UsageReportedOnce plus (h.turn raws).items (h.runTurn plus.add raws raised).emitted
      (h.leftEarly raws raised) ↔
      ∀ item ∈ after, item.isUsage →
        AddsNothing plus (usages plus (beforeTerminal (h.turn raws).items))
          (item.usage plus) := by
  have hitems := items_eq (h.turn raws).items
  rw [hfrom] at hitems
  have hfirst := terminal_of_from hfrom
  have hbefore : ∀ item ∈ beforeTerminal (h.turn raws).items, item.isTerminal = false :=
    not_terminal_before
  obtain ⟨hwith, hemitted⟩ := sentWith_first hbefore hfirst hreports
  rw [← content_iff hfirst]
  constructor
  · intro hr later hlater key
    rw [hr.content _ first after hitems.symm hwith later hlater key]
    exact (get_usageTotal _ key).2.symm
  · intro hcontent
    have hinitial : (emitAll plus.add (beforeTerminal (h.turn raws).items ++ [first])).emitted <+:
        (emitAll plus.add (h.turn raws).items).emitted := emitted_mono ⟨after, by
          rw [List.append_assoc]
          exact hitems⟩
    obtain ⟨tail, htail⟩ := hinitial
    rw [hemitted] at htail
    obtain ⟨rest, heq, -⟩ := emitted_runTurn plus h raws raised
    have hsplit : (h.runTurn plus.add raws raised).emitted =
        (emitAll plus.add (beforeTerminal (h.turn raws).items)).emitted ++
          .usage :: (.event first :: tail ++ rest) := by
      rw [heq, ← htail, List.append_assoc, List.append_assoc]
      rfl
    refine ⟨countP_runTurn h raws raised, ?_, ?_, fun _ _ key => (get_usageTotal _ key).2, ?_⟩
    · exact early_of_eq hsplit (countP_runTurn h raws raised)
        fun e he => (emitted_of_early hbefore e he).1
    · intro pre item post hpost hsent later hlater key
      obtain ⟨rfl, rfl, rfl⟩ := eq_of_sentWith hbefore hwith.2 hsent (hitems.trans hpost)
      rw [hcontent later hlater key]
      exact (get_usageTotal _ key).2
    · intro _
      rw [hsplit]
      exact List.mem_append_right _ List.mem_cons_self

section

variable (hnone : ¬ ∃ item ∈ beforeTerminal (h.turn raws).items, item.reports plus)
include hnone

theorem reported_iff_of_late :
    UsageReportedOnce plus (h.turn raws).items (h.runTurn plus.add raws raised).emitted
      (h.leftEarly raws raised) ↔
      .usage ∉ (h.runTurn plus.add raws raised).emitted := by
  have hitems := items_eq (h.turn raws).items
  rw [hfrom] at hitems
  have hfirst := terminal_of_from hfrom
  have hfirstSent : .event first ∈
      (emitAll plus.add (beforeTerminal (h.turn raws).items ++ [first])).emitted ∧
        .usage ∉ (emitAll plus.add (beforeTerminal (h.turn raws).items ++ [first])).emitted := by
    have hempty : (emitAll plus.add (beforeTerminal (h.turn raws).items)).usageTotal = [] := by
      rw [usageTotal_isEmpty]
      intro item hitem
      rw [← Bool.not_eq_true]
      exact fun hreports => hnone ⟨item, hitem, hreports⟩
    rw [emitAll_concat]
    obtain ⟨husage, -⟩ | ⟨-, hsent, -⟩ | ⟨-, -, heq⟩ :=
      emit_cases (emitAll plus.add (beforeTerminal (h.turn raws).items)) first
    · rw [not_isUsage_of_terminal hfirst] at husage
      cases husage
    · exact absurd hempty hsent.2.1
    · rw [heq]
      refine ⟨List.mem_append_right _ List.mem_cons_self, fun hmem => ?_⟩
      obtain hmem | hmem := List.mem_append.mp hmem
      · exact absurd (emitted_of_early not_terminal_before _ hmem).2 nofun
      · exact absurd (List.mem_singleton.mp hmem) nofun
  constructor
  · intro hr hmem
    obtain ⟨pre, post, hsplit⟩ := List.append_of_mem hmem
    obtain ⟨rest, heq, -⟩ := emitted_runTurn plus h raws raised
    have hinitial : (emitAll plus.add (beforeTerminal (h.turn raws).items ++ [first])).emitted <+:
        pre ++ .usage :: post := by
      rw [← hsplit, heq]
      refine (emitted_mono ⟨after, ?_⟩).trans (List.prefix_append _ rest)
      rw [List.append_assoc]
      exact hitems
    have hpre : .event first ∈ pre := by
      obtain ⟨tail, htail⟩ := hinitial
      obtain ⟨more, hmore, -⟩ | ⟨more, hmore, htail'⟩ := List.append_eq_append_iff.mp htail
      · rw [hmore]
        exact List.mem_append_left more hfirstSent.1
      · cases more with
        | nil =>
          rw [List.append_nil] at hmore
          exact hmore ▸ hfirstSent.1
        | cons x more =>
          rw [List.cons_append, List.cons.injEq] at htail'
          refine absurd ?_ hfirstSent.2
          rw [hmore, htail'.1]
          exact List.mem_append_right pre List.mem_cons_self
    have hnot := hr.early pre post hsplit _ hpre
    rw [Emitted.isTerminal] at hnot
    exact absurd hfirst (Bool.eq_false_iff.mp hnot)
  · intro hmem
    have hnotSent : ¬ (emitAll plus.add (h.turn raws).items).usageEmitted = true := fun hsent =>
      hmem ((usage_mem_runTurn h raws raised).mpr (.inl hsent))
    refine ⟨countP_runTurn h raws raised, ?_, ?_, fun _ _ key => (get_usageTotal _ key).2, ?_⟩
    · intro pre post hsplit
      exact absurd (hsplit ▸ List.mem_append_right pre List.mem_cons_self) hmem
    · intro pre item post hsplit hwith
      obtain ⟨p, x, hpx, hx⟩ := (usageEmitted_iff _).mp hwith.2
      refine absurd ((usageEmitted_iff _).mpr ⟨p, x, hpx.trans ⟨post, ?_⟩, hx⟩) hnotSent
      rw [hsplit, List.append_assoc]
      rfl
    · exact fun hreports => absurd hreports hnone

/-- Usage reported only after the first terminal event stays unsent exactly when no terminal event
follows it and the upstream does not end. -/
theorem not_sent_iff :
    .usage ∉ (h.runTurn plus.add raws raised).emitted ↔
      (h.leftEarly raws raised = false → ∀ item ∈ after, item.reports plus = false) ∧
        ∀ pre item post, after = pre ++ item :: post → item.reports plus →
          ∀ other ∈ post, other.isTerminal = false := by
  have hitems := items_eq (h.turn raws).items
  rw [hfrom] at hitems
  have hfirstReports : first.reports plus = false := by
    rw [RuntimeTurnEvent.reports, not_isUsage_of_terminal (terminal_of_from hfrom), Bool.false_and]
  have hempty : (emitAll plus.add (h.turn raws).items).usageTotal = [] ↔
      ∀ item ∈ after, item.reports plus = false := by
    rw [usageTotal_isEmpty, ← hitems, List.forall_mem_append, List.forall_mem_cons]
    refine ⟨fun hall => hall.2.2, fun hall => ⟨fun item hitem => ?_, hfirstReports, hall⟩⟩
    rw [← Bool.not_eq_true]
    exact fun hreports => hnone ⟨item, hitem, hreports⟩
  have hsent : (emitAll plus.add (h.turn raws).items).usageEmitted = true ↔
      ∃ pre item post, after = pre ++ item :: post ∧ item.reports plus ∧
        ∃ other ∈ post, other.isTerminal := by
    rw [usageEmitted_iff, ← hitems]
    constructor
    · rintro ⟨pre, x, hinitial, hx, r, hr, hreports⟩
      obtain ⟨rest, hpre, hrest, hmem⟩ := extends_of_prefix
        ((List.prefix_append pre [x]).trans hinitial) hr
        (fun hbefore => hnone ⟨r, hbefore, hreports⟩)
        (by rintro rfl; rw [hfirstReports] at hreports; cases hreports)
      obtain ⟨a, b, rfl⟩ := List.append_of_mem hmem
      obtain ⟨tail, htail⟩ := hinitial
      rw [hpre, List.append_assoc, List.append_assoc, List.append_cancel_left_eq] at htail
      rw [List.cons_append, List.cons.injEq] at htail
      refine ⟨a, r, b ++ x :: tail, ?_, hreports, x, ?_, hx⟩
      · rw [← htail.2, List.append_assoc, List.cons_append]
        rfl
      · exact List.mem_append_right b List.mem_cons_self
    · rintro ⟨a, r, post, rfl, hreports, x, hx, hterminal⟩
      obtain ⟨b, c, rfl⟩ := List.append_of_mem hx
      refine ⟨beforeTerminal (h.turn raws).items ++ first :: (a ++ r :: b), x, ⟨c, ?_⟩, hterminal,
        r, ?_, hreports⟩
      · simp
      · exact List.mem_append_right _ (List.mem_cons_of_mem _
          (List.mem_append_right a List.mem_cons_self))
  rw [usage_mem_runTurn, not_or, hsent, not_and, not_not, hempty, and_comm]
  refine and_congr Iff.rfl ⟨fun hno pre item post hafter hreports other hother => ?_, ?_⟩
  · rw [← Bool.not_eq_true]
    exact fun hterminal => hno ⟨pre, item, post, hafter, hreports, other, hother, hterminal⟩
  · rintro hno ⟨pre, item, post, hafter, hreports, other, hother, hterminal⟩
    rw [hno pre item post hafter hreports other hother] at hterminal
    cases hterminal

end

end

variable (plus) in
/-- A turn of any runtime reports its usage once and in full exactly when the usage is reported in
time. -/
theorem usage_reported_once_iff :
    UsageReportedOnce plus (h.turn raws).items (h.runTurn plus.add raws raised).emitted
      (h.leftEarly raws raised) ↔
      UsageInTime plus (h.turn raws).items (h.leftEarly raws raised) := by
  unfold UsageInTime
  split
  next hfrom => exact reported_iff_of_nil h raws raised hfrom
  next first after hfrom =>
    split_ifs with hreports
    · exact reported_iff_of_reports h raws raised hfrom hreports
    · rw [reported_iff_of_late h raws raised hfrom hreports]
      exact not_sent_iff h raws raised hfrom hreports

end

def addWhole : NumberAdd where
  add
    | .num a _, .num b _ => .num (a + b) 0
    | _, value => value
  isNumber a b ha hb := by
    cases a with
    | num m e =>
      cases b with
      | num n f => rfl
      | _ => exact absurd hb Bool.false_ne_true
    | _ => exact absurd ha Bool.false_ne_true

end WittyService

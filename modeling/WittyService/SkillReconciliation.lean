import WittyService.RuntimeSkills

/-! When the skills of an agent are reconciled with those its runtime reports. -/
namespace WittyService

open JsonText Utf8Text

namespace RuntimeSkills

theorem dropWhile_rdropWhile {p : ℕ → Bool} {t : CodePoints} (h : t.dropWhile p = t) :
    (t.rdropWhile p).dropWhile p = t.rdropWhile p := by
  cases ht : t with
  | nil => rfl
  | cons c rest =>
    have hc : p c = false := by
      by_contra hc
      rw [Bool.not_eq_false] at hc
      rw [ht, List.dropWhile_cons_of_pos hc] at h
      have hlength := congrArg List.length h
      have hle := (List.dropWhile_suffix p (l := rest)).length_le
      rw [List.length_cons] at hlength
      omega
    have hprefix : (c :: rest).rdropWhile p <+: c :: rest := List.rdropWhile_prefix p _
    cases hr : (c :: rest).rdropWhile p with
    | nil => rfl
    | cons d rest' =>
      rw [hr] at hprefix
      have hd : d = c := (List.cons_prefix_cons.mp hprefix).1
      apply List.dropWhile_cons_of_neg
      rw [hd, hc]
      exact Bool.false_ne_true

theorem strip_strip (t : CodePoints) : strip (strip t) = strip t := by
  have hdrop := List.dropWhile_idempotent isSpace t
  unfold strip
  rw [dropWhile_rdropWhile hdrop, List.rdropWhile_idempotent]

/-- A path that nothing would be stripped from. -/
def Stripped (key : SkillKey) : Prop := ∀ p ∈ key.2, p ≠ [] ∧ strip p = p

theorem reportedOf_stripped {item : JsonText.Value} {r : Reported}
    (h : reportedOf item = some r) : strip r.name = r.name ∧ Stripped r.key := by
  unfold reportedOf at h
  split at h
  · split at h
    · split_ifs at h
      cases h
      refine ⟨strip_strip _, fun p hp => ?_⟩
      obtain ⟨hmap, hne⟩ := Option.filter_eq_some_iff.mp hp
      obtain ⟨raw, -, rfl⟩ := Option.map_eq_some_iff.mp hmap
      exact ⟨by simpa using hne, strip_strip raw⟩
    · cases h
  · cases h

/-- The runtime reports a skill of this key. -/
def IsReported (skills : List JsonText.Value) (key : SkillKey) : Prop :=
  ∃ item ∈ skills, ∃ r, reportedOf item = some r ∧ r.key = key

theorem mem_normalizedFrom {skills : List JsonText.Value} {seen : List SkillKey} {key : SkillKey} :
    key ∈ (normalizedFrom seen skills).map Reported.key ↔
      key ∉ seen ∧ IsReported skills key := by
  unfold IsReported
  induction skills generalizing seen with
  | nil => simp [normalizedFrom]
  | cons item items ih =>
    unfold normalizedFrom
    simp only [List.mem_cons, exists_eq_or_imp]
    cases hitem : reportedOf item with
    | none =>
      rw [ih]
      simp
    | some r =>
      dsimp only
      split_ifs with hseen
      · rw [ih]
        constructor
        · exact fun h => ⟨h.1, .inr h.2⟩
        · rintro ⟨hnew, ⟨r', hr', hkey⟩ | h⟩
          · cases hr'
            exact absurd (hkey ▸ hseen) hnew
          · exact ⟨hnew, h⟩
      · rw [List.map_cons, List.mem_cons, ih]
        simp only [Option.some.injEq, exists_eq_left', List.mem_append, List.mem_singleton, not_or]
        constructor
        · rintro (rfl | ⟨⟨hnew, -⟩, h⟩)
          · exact ⟨hseen, .inl rfl⟩
          · exact ⟨hnew, .inr h⟩
        · rintro ⟨hnew, rfl | h⟩
          · exact .inl rfl
          · by_cases hkey : key = r.key
            · exact .inl hkey
            · exact .inr ⟨⟨hnew, hkey⟩, h⟩

theorem nodup_normalizedFrom (skills : List JsonText.Value) (seen : List SkillKey) :
    ((normalizedFrom seen skills).map Reported.key).Nodup := by
  induction skills generalizing seen with
  | nil => exact .nil
  | cons item items ih =>
    unfold normalizedFrom
    split
    · exact ih seen
    · split_ifs
      · exact ih seen
      · rename_i r _ _
        rw [List.map_cons, List.nodup_cons]
        refine ⟨fun hmem => ?_, ih _⟩
        apply (mem_normalizedFrom.mp hmem).1
        exact List.mem_append_right _ List.mem_cons_self

section

variable {skills : List JsonText.Value}

theorem reportedOf_of_mem {seen : List SkillKey} {r : Reported}
    (h : r ∈ normalizedFrom seen skills) : ∃ item ∈ skills, reportedOf item = some r := by
  induction skills generalizing seen with
  | nil => cases h
  | cons item items ih =>
    have hrest {seen : List SkillKey} (h : r ∈ normalizedFrom seen items) :
        ∃ item' ∈ item :: items, reportedOf item' = some r := by
      obtain ⟨item', hmem, hitem⟩ := ih h
      exact ⟨item', List.mem_cons_of_mem item hmem, hitem⟩
    unfold normalizedFrom at h
    split at h
    · exact hrest h
    · rename_i r' hr'
      split_ifs at h
      · exact hrest h
      · rcases List.mem_cons.mp h with rfl | h
        · exact ⟨item, List.mem_cons_self, hr'⟩
        · exact hrest h

variable {key : SkillKey}

theorem mem_normalized :
    key ∈ (normalized skills).map Reported.key ↔ IsReported skills key := by
  rw [normalized, mem_normalizedFrom]
  exact and_iff_right List.not_mem_nil

theorem stripped_incoming (h : key ∈ (normalized skills).map Reported.key) : Stripped key := by
  obtain ⟨item, -, r, hr, rfl⟩ := mem_normalized.mp h
  exact (reportedOf_stripped hr).2

end

def normalKey (row : AgentSkill) : SkillKey := (strip row.skillName, normalPath row.relativePath)

variable {row : AgentSkill}

theorem normalKey_of_raw (h : Stripped (rawKey row)) :
    normalKey row = rawKey row ∧ storedKey row = rawKey row := by
  unfold normalKey storedKey rawKey normalPath
  cases hpath : row.relativePath with
  | none => exact ⟨rfl, rfl⟩
  | some p =>
    obtain ⟨hne, hstrip⟩ := h p hpath
    simp [hstrip, hne]

theorem normalKey_of_stored (h : Stripped (storedKey row)) :
    normalKey row = storedKey row := by
  unfold normalKey normalPath
  unfold Stripped storedKey at h
  unfold storedKey
  cases hpath : row.relativePath with
  | none => rfl
  | some p =>
    rw [hpath] at h
    by_cases hp : p = []
    · subst hp
      rfl
    · have hne : strip p ≠ [] := (h (strip p) (by simp [Option.filter, hp])).1
      simp [Option.filter, hp, hne]

section Tables

variable (uuid5 : CodePoints → CodePoints) (agentId : CodePoints)

def builtinKeys (t : SkillTables) : List SkillKey :=
  (t.installed.entries.filter fun e => isBuiltin e.2).map fun e => normalKey e.2

def nonBuiltin (t : SkillTables) : List (CodePoints × AgentSkill) :=
  t.installed.entries.filter fun e => !isBuiltin e.2

/-- A row of another source has this key. -/
def Claimed (t : SkillTables) (key : SkillKey) : Prop :=
  ∃ e ∈ nonBuiltin t, normalKey e.2 = key

/-- There is one builtin row for each key that is reported and not claimed, and the other rows are
those there were. -/
structure Reconciled (skills : List JsonText.Value) (t t' : SkillTables) : Prop where
  keys : ∀ key, key ∈ builtinKeys t' ↔ IsReported skills key ∧ ¬ Claimed t key
  single : (builtinKeys t').Nodup
  others : nonBuiltin t' = nonBuiltin t

/-- The call succeeds and reconciles the rows, and the same call again changes nothing. -/
def Reconciles (skills : List JsonText.Value) (now : ℤ) (t : SkillTables) : Prop :=
  ∃ t', replaceInstalledAgentSkillsFromRuntime uuid5 agentId skills now t = some t' ∧
    Reconciled skills t t' ∧
    ∀ later, replaceInstalledAgentSkillsFromRuntime uuid5 agentId skills later t' = some t'

def incoming (skills : List JsonText.Value) : List SkillKey := (normalized skills).map Reported.key

def missing (existing : List SkillKey) (reported : List Reported) : List Reported :=
  reported.filter fun r => r.key ∉ existing

def keptKeys (skills : List JsonText.Value) (t : SkillTables) : List SkillKey :=
  (kept (incoming skills) t).entries.map fun e => storedKey e.2

/-- The new rows can be inserted beside those with the given ids. -/
def Fits (ids : List CodePoints) (new : List Reported) : Prop :=
  (∀ r ∈ new, bindable r.source) ∧ (ids ++ new.map (builtinId uuid5 agentId)).Nodup

variable {uuid5 agentId} {now : ℤ}

section

variable {r : Reported} {reported : List Reported} {existing : List SkillKey}

theorem missing_cons_new (hnew : r.key ∉ existing) (hrest : r.key ∉ reported.map Reported.key) :
    missing existing (r :: reported) = r :: missing (existing ++ [r.key]) reported := by
  unfold missing
  rw [List.filter_cons_of_pos (by simpa using hnew)]
  congr 1
  apply List.filter_congr
  intro other hother
  have hne : other.key ≠ r.key := fun heq => hrest (heq ▸ List.mem_map_of_mem hother)
  simp [hne]

theorem missing_cons_old (hold : r.key ∈ existing)
    : missing existing (r :: reported) = missing existing reported := by
  unfold missing
  rw [List.filter_cons_of_neg (by simpa using hold)]

end

theorem entries_set_new {d : OrderedDict CodePoints AgentSkill} {id : CodePoints}
    (h : id ∉ d.entries.map Prod.fst) (row : AgentSkill) :
    (d.set id row).entries = d.entries ++ [(id, row)] := by
  unfold OrderedDict.set
  rw [dif_neg h]

variable (reported : List Reported)

theorem foldlM_insertMissing (state : SkillTables × List SkillKey)
    (hnodup : (reported.map Reported.key).Nodup) :
    (Fits uuid5 agentId (state.1.installed.entries.map Prod.fst) (missing state.2 reported) →
      ∃ state', reported.foldlM (insertMissing uuid5 agentId now) state = some state' ∧
        state'.1.installed.entries = state.1.installed.entries ++
          (missing state.2 reported).map fun r => (builtinId uuid5 agentId r, builtinRow r now)) ∧
      (¬ Fits uuid5 agentId (state.1.installed.entries.map Prod.fst) (missing state.2 reported) →
        reported.foldlM (insertMissing uuid5 agentId now) state = none) := by
  induction reported generalizing state with
  | nil =>
    constructor
    · exact fun _ => ⟨state, rfl, by simp [missing]⟩
    · refine fun hnot => absurd ⟨nofun, ?_⟩ hnot
      rw [missing, List.filter_nil, List.map_nil, List.append_nil]
      exact state.1.installed.nodupKeys
  | cons r reported ih =>
    obtain ⟨hr, hnodup⟩ := List.nodup_cons.mp hnodup
    rw [List.foldlM_cons]
    by_cases hold : r.key ∈ state.2
    · have hstep : insertMissing uuid5 agentId now state r = some state := if_pos hold
      rw [hstep, missing_cons_old hold]
      exact ih state hnodup
    rw [missing_cons_new hold hr]
    by_cases hbad : builtinId uuid5 agentId r ∈ state.1.installed.entries.map Prod.fst ∨
        bindable r.source = false
    · have hstep : insertMissing uuid5 agentId now state r = none := by
        unfold insertMissing
        rw [if_neg hold]
        exact if_pos hbad
      rw [hstep]
      refine ⟨fun hfits => ?_, fun _ => rfl⟩
      exfalso
      rcases hbad with hid | hsource
      · exact (List.nodup_append.mp hfits.2).2.2 _ hid _ List.mem_cons_self rfl
      · have hbind := hfits.1 r List.mem_cons_self
        rw [hsource] at hbind
        cases hbind
    · obtain ⟨hid, hsource⟩ := not_or.mp hbad
      rw [Bool.not_eq_false] at hsource
      obtain ⟨next, hstep, hentries, hkeys⟩ : ∃ next,
          insertMissing uuid5 agentId now state r = some next ∧
            next.1.installed.entries = state.1.installed.entries ++
              [(builtinId uuid5 agentId r, builtinRow r now)] ∧ next.2 = state.2 ++ [r.key] := by
        unfold insertMissing
        rw [if_neg hold]
        exact ⟨_, if_neg hbad, entries_set_new hid _, rfl⟩
      have hfits : Fits uuid5 agentId (state.1.installed.entries.map Prod.fst)
          (r :: missing (state.2 ++ [r.key]) reported) ↔
            Fits uuid5 agentId (next.1.installed.entries.map Prod.fst)
              (missing (state.2 ++ [r.key]) reported) := by
        unfold Fits
        rw [hentries, List.forall_mem_cons, List.map_append, List.append_assoc]
        exact and_congr_left fun _ => and_iff_right hsource
      have hnext := ih next hnodup
      rw [hkeys] at hnext
      rw [hstep, hfits]
      refine ⟨fun h => ?_, hnext.2⟩
      obtain ⟨state', hrun, hall⟩ := hnext.1 h
      refine ⟨state', hrun, ?_⟩
      rw [hall, hentries, List.append_assoc]
      rfl

variable (uuid5 agentId) in
/-- The reported texts have bytes, and no missing skill has the id of another one or of a row that
stays. -/
structure Insertable (skills : List JsonText.Value) (t : SkillTables) : Prop where
  texts : ∀ r ∈ normalized skills, bindable (some (idText agentId r.key))
  fits : Fits uuid5 agentId ((kept (incoming skills) t).entries.map Prod.fst)
    (missing (keptKeys skills t) (normalized skills))

variable {skills : List JsonText.Value} {t t' : SkillTables}

theorem replace_leaves (h : Insertable uuid5 agentId skills t) (now : ℤ) :
    ∃ t', replaceInstalledAgentSkillsFromRuntime uuid5 agentId skills now t = some t' ∧
      t'.installed.entries = (kept (incoming skills) t).entries ++
        (missing (keptKeys skills t) (normalized skills)).map fun r =>
          (builtinId uuid5 agentId r, builtinRow r now) := by
  obtain ⟨state, hrun, hentries⟩ := (@foldlM_insertMissing uuid5 agentId now (normalized skills)
    (⟨kept (incoming skills) t, t.skills.keep fun e => e.1 ∉ obsoleteIds (incoming skills) t⟩,
      keptKeys skills t) (nodup_normalizedFrom skills [])).1 h.fits
  refine ⟨state.1, ?_, hentries⟩
  unfold replaceInstalledAgentSkillsFromRuntime
  rw [if_pos (List.all_eq_true.mpr h.texts)]
  exact Option.map_eq_some_iff.mpr ⟨state, hrun, rfl⟩

theorem insertable_of_replace
    (h : replaceInstalledAgentSkillsFromRuntime uuid5 agentId skills now t = some t') :
    Insertable uuid5 agentId skills t := by
  unfold replaceInstalledAgentSkillsFromRuntime at h
  dsimp only at h
  split_ifs at h with htexts
  refine ⟨List.all_eq_true.mp htexts, ?_⟩
  by_contra hnot
  obtain ⟨state, hrun, -⟩ := Option.map_eq_some_iff.mp h
  have hnone := (@foldlM_insertMissing uuid5 agentId now (normalized skills)
    (⟨kept (incoming skills) t, t.skills.keep fun e => e.1 ∉ obsoleteIds (incoming skills) t⟩,
      keptKeys skills t) (nodup_normalizedFrom skills [])).2 hnot
  cases hnone.symm.trans hrun

theorem mem_kept {keys : List SkillKey} {e : CodePoints × AgentSkill} :
    e ∈ (kept keys t).entries ↔ e ∈ t.installed.entries ∧
      (isBuiltin e.2 = true → rawKey e.2 ∈ keys ∧ rawKey e.2 ∉ nonBuiltinKeys t.installed) := by
  unfold kept OrderedDict.keep obsolete
  rw [List.mem_filter]
  apply and_congr_right
  intro _
  cases isBuiltin e.2 <;> simp

theorem nonBuiltin_kept (keys : List SkillKey) :
    (kept keys t).entries.filter (fun e => !isBuiltin e.2) = nonBuiltin t := by
  unfold kept OrderedDict.keep nonBuiltin
  rw [List.filter_filter]
  apply List.filter_congr
  intro e _
  unfold obsolete
  cases isBuiltin e.2 <;> simp

variable (skills t) in
def keptBuiltinKeys : List SkillKey :=
  ((kept (incoming skills) t).entries.filter fun e => isBuiltin e.2).map fun e => normalKey e.2

theorem normalKey_builtinRow {r : Reported} (hr : r ∈ normalized skills) (now : ℤ) :
    normalKey (builtinRow r now) = r.key := by
  obtain ⟨item, -, hitem⟩ := reportedOf_of_mem hr
  obtain ⟨hname, hstripped⟩ := reportedOf_stripped hitem
  have hraw : rawKey (builtinRow r now) = r.key := Prod.ext hname rfl
  rw [← hraw] at hstripped ⊢
  exact (normalKey_of_raw hstripped).1

variable {key : SkillKey}

theorem mem_keptBuiltinKeys (h : key ∈ keptBuiltinKeys skills t) :
    key ∈ incoming skills ∧ key ∉ nonBuiltinKeys t.installed ∧ key ∈ keptKeys skills t := by
  obtain ⟨e, he, rfl⟩ := List.mem_map.mp h
  obtain ⟨hmem, hbuiltin⟩ := List.mem_filter.mp he
  obtain ⟨hincoming, hfree⟩ := (mem_kept.mp hmem).2 hbuiltin
  obtain ⟨hnormal, hstored⟩ := normalKey_of_raw (stripped_incoming hincoming)
  rw [hnormal]
  exact ⟨hincoming, hfree, List.mem_map.mpr ⟨e, hmem, hstored⟩⟩

theorem of_mem_keptKeys (h : key ∈ keptKeys skills t) (hincoming : key ∈ incoming skills) :
    key ∈ keptBuiltinKeys skills t ∨ key ∈ nonBuiltinKeys t.installed := by
  obtain ⟨e, he, rfl⟩ := List.mem_map.mp h
  obtain ⟨hmem, hkeeps⟩ := mem_kept.mp he
  cases hbuiltin : isBuiltin e.2 with
  | false =>
    right
    exact List.mem_map.mpr ⟨e, List.mem_filter.mpr ⟨hmem, by simp [hbuiltin]⟩, rfl⟩
  | true =>
    left
    obtain ⟨hnormal, hstored⟩ := normalKey_of_raw (stripped_incoming (hkeeps hbuiltin).1)
    rw [hstored, ← hnormal]
    exact List.mem_map.mpr ⟨e, List.mem_filter.mpr ⟨he, hbuiltin⟩, rfl⟩

theorem nonBuiltinKeys_subset (h : key ∈ nonBuiltinKeys t.installed) :
    key ∈ keptKeys skills t := by
  obtain ⟨e, he, rfl⟩ := List.mem_map.mp h
  obtain ⟨hmem, hother⟩ := List.mem_filter.mp he
  refine List.mem_map.mpr ⟨e, mem_kept.mpr ⟨hmem, fun hbuiltin => ?_⟩, rfl⟩
  rw [hbuiltin] at hother
  cases hother

theorem mem_missing :
    key ∈ (missing (keptKeys skills t) (normalized skills)).map Reported.key ↔
      key ∈ incoming skills ∧ key ∉ keptKeys skills t := by
  constructor
  · intro h
    obtain ⟨r, hr, rfl⟩ := List.mem_map.mp h
    obtain ⟨hmem, hnew⟩ := List.mem_filter.mp hr
    exact ⟨List.mem_map_of_mem hmem, by simpa using hnew⟩
  · rintro ⟨hmem, hnew⟩
    obtain ⟨r, hr, rfl⟩ := List.mem_map.mp hmem
    exact List.mem_map_of_mem (List.mem_filter.mpr ⟨hr, by simpa using hnew⟩)

/-- The rows the call leaves when it succeeds. -/
def Leaves (uuid5 : CodePoints → CodePoints) (agentId : CodePoints)
    (skills : List JsonText.Value) (now : ℤ) (t t' : SkillTables) : Prop :=
  t'.installed.entries = (kept (incoming skills) t).entries ++
    (missing (keptKeys skills t) (normalized skills)).map fun r =>
      (builtinId uuid5 agentId r, builtinRow r now)

theorem Leaves.builtinKeys (h : Leaves uuid5 agentId skills now t t') :
    builtinKeys t' = keptBuiltinKeys skills t ++
      (missing (keptKeys skills t) (normalized skills)).map Reported.key := by
  unfold RuntimeSkills.builtinKeys keptBuiltinKeys
  rw [h, List.filter_append, List.map_append, List.filter_map, List.map_map]
  congr 1
  rw [List.filter_eq_self.mpr]
  · apply List.map_congr_left
    intro r hr
    exact normalKey_builtinRow (List.mem_of_mem_filter hr) now
  · exact fun _ _ => rfl

theorem Leaves.nonBuiltin (h : Leaves uuid5 agentId skills now t t') :
    nonBuiltin t' = nonBuiltin t := by
  rw [← @nonBuiltin_kept t (incoming skills)]
  unfold RuntimeSkills.nonBuiltin
  rw [h, List.filter_append, List.filter_map]
  have hnone : (missing (keptKeys skills t) (normalized skills)).filter
      ((fun e : CodePoints × AgentSkill => !isBuiltin e.2) ∘ fun r =>
        (builtinId uuid5 agentId r, builtinRow r now)) = [] :=
    List.filter_eq_nil_iff.mpr fun _ _ => Bool.false_ne_true
  rw [hnone, List.map_nil, List.append_nil]

theorem Leaves.mem_builtinKeys (h : Leaves uuid5 agentId skills now t t') :
    key ∈ RuntimeSkills.builtinKeys t' ↔
      key ∈ incoming skills ∧ key ∉ nonBuiltinKeys t.installed := by
  rw [h.builtinKeys, List.mem_append, mem_missing]
  constructor
  · rintro (hkept | ⟨hincoming, hnew⟩)
    · have hstays := mem_keptBuiltinKeys hkept
      exact ⟨hstays.1, hstays.2.1⟩
    · exact ⟨hincoming, fun hclaimed => hnew (nonBuiltinKeys_subset hclaimed)⟩
  · rintro ⟨hincoming, hfree⟩
    by_cases hkept : key ∈ keptKeys skills t
    · exact .inl ((of_mem_keptKeys hkept hincoming).resolve_right hfree)
    · exact .inr ⟨hincoming, hkept⟩

theorem Leaves.nodup_iff (h : Leaves uuid5 agentId skills now t t') :
    (RuntimeSkills.builtinKeys t').Nodup ↔ (keptBuiltinKeys skills t).Nodup := by
  rw [h.builtinKeys, List.nodup_append]
  have hmissing : ((missing (keptKeys skills t) (normalized skills)).map Reported.key).Nodup :=
    (nodup_normalizedFrom skills []).sublist (List.filter_sublist.map Reported.key)
  constructor
  · exact fun hall => hall.1
  · refine fun hkept => ⟨hkept, hmissing, fun a ha b hb hab => ?_⟩
    exact (mem_missing.mp hb).2 (hab ▸ (mem_keptBuiltinKeys ha).2.2)

theorem keep_eq_self {β : Type} {d : OrderedDict CodePoints β} {p : CodePoints × β → Bool}
    (h : ∀ e ∈ d.entries, p e = true) : d.keep p = d := by
  obtain ⟨entries, hnodup⟩ := d
  unfold OrderedDict.keep
  congr 1
  exact List.filter_eq_self.mpr h

theorem foldlM_insertMissing_old (state : SkillTables × List SkillKey)
    (h : ∀ r ∈ reported, r.key ∈ state.2) :
    reported.foldlM (insertMissing uuid5 agentId now) state = some state := by
  induction reported with
  | nil => rfl
  | cons r reported ih =>
    obtain ⟨hr, hreported⟩ := List.forall_mem_cons.mp h
    have hstep : insertMissing uuid5 agentId now state r = some state := if_pos hr
    rw [List.foldlM_cons, hstep]
    exact ih hreported

theorem nonBuiltinKeys_eq (t : SkillTables) :
    nonBuiltinKeys t.installed = (RuntimeSkills.nonBuiltin t).map fun e => storedKey e.2 := rfl

section

variable (h : Leaves uuid5 agentId skills now t t')
include h

theorem Leaves.kept_eq :
    kept (incoming skills) t' = t'.installed ∧ obsoleteIds (incoming skills) t' = [] := by
  have hstays : ∀ e ∈ t'.installed.entries,
      obsolete t'.installed (incoming skills) e.2 = false := by
    intro e he
    have hall := (@mem_kept t' (incoming skills) e).mpr ⟨he, ?_⟩
    · simpa using (List.mem_filter.mp hall).2
    intro hbuiltin
    rw [nonBuiltinKeys_eq, h.nonBuiltin, ← nonBuiltinKeys_eq]
    have hkey : normalKey e.2 ∈ RuntimeSkills.builtinKeys t' :=
      List.mem_map.mpr ⟨e, List.mem_filter.mpr ⟨he, hbuiltin⟩, rfl⟩
    have hraw : normalKey e.2 = rawKey e.2 := by
      rw [h] at he
      rcases List.mem_append.mp he with hold | hnew
      · exact (normalKey_of_raw (stripped_incoming ((mem_kept.mp hold).2 hbuiltin).1)).1
      · obtain ⟨r, hr, rfl⟩ := List.mem_map.mp hnew
        obtain ⟨item, -, hitem⟩ := reportedOf_of_mem (List.mem_of_mem_filter hr)
        rw [normalKey_builtinRow (List.mem_of_mem_filter hr) now]
        exact Prod.ext (reportedOf_stripped hitem).1.symm rfl
    rw [← hraw]
    exact h.mem_builtinKeys.mp hkey
  constructor
  · apply keep_eq_self
    intro e he
    rw [hstays e he]
    rfl
  · unfold obsoleteIds
    rw [List.filter_eq_nil_iff.mpr, List.map_nil]
    intro e he
    rw [hstays e he]
    exact Bool.false_ne_true

theorem Leaves.covers {key : SkillKey}
    (hincoming : key ∈ incoming skills) : key ∈ keptKeys skills t' := by
  by_cases hclaimed : key ∈ nonBuiltinKeys t.installed
  · apply nonBuiltinKeys_subset
    rwa [nonBuiltinKeys_eq, h.nonBuiltin, ← nonBuiltinKeys_eq]
  · have hkey := h.mem_builtinKeys.mpr ⟨hincoming, hclaimed⟩
    apply (mem_keptBuiltinKeys _).2.2
    unfold keptBuiltinKeys
    rw [h.kept_eq.1]
    exact hkey

theorem Leaves.again (htexts : ∀ r ∈ normalized skills, bindable (some (idText agentId r.key)))
    (later : ℤ) :
    replaceInstalledAgentSkillsFromRuntime uuid5 agentId skills later t' = some t' := by
  obtain ⟨hkept, hobsolete⟩ := h.kept_eq
  have hskills : (t'.skills.keep fun e => e.1 ∉ ([] : List CodePoints)) = t'.skills :=
    keep_eq_self fun _ _ => by simp
  have hexisting : ∀ r ∈ normalized skills, r.key ∈ keptKeys skills t' :=
    fun r hr => h.covers (List.mem_map_of_mem hr)
  unfold keptKeys at hexisting
  unfold incoming at hkept hobsolete hexisting
  unfold replaceInstalledAgentSkillsFromRuntime
  dsimp only
  rw [hkept] at hexisting
  rw [if_pos (List.all_eq_true.mpr htexts), hkept, hobsolete, hskills,
    foldlM_insertMissing_old _ _ hexisting, Option.map_some]

end

/-- No row of another source has a reported key only because its path is blank. -/
def NoBlankClaims (skills : List JsonText.Value) (t : SkillTables) : Prop :=
  ∀ key ∈ incoming skills, Claimed t key → key ∈ nonBuiltinKeys t.installed

theorem Leaves.keys_iff (h : Leaves uuid5 agentId skills now t t') :
    (∀ key, key ∈ RuntimeSkills.builtinKeys t' ↔ IsReported skills key ∧ ¬ Claimed t key) ↔
      NoBlankClaims skills t := by
  have hclaimed {key : SkillKey} (hincoming : key ∈ incoming skills)
      (hkey : key ∈ nonBuiltinKeys t.installed) : Claimed t key := by
    obtain ⟨e, he, rfl⟩ := List.mem_map.mp hkey
    exact ⟨e, he, normalKey_of_stored (stripped_incoming hincoming)⟩
  simp only [h.mem_builtinKeys, ← mem_normalized]
  constructor
  · intro hkeys key hincoming hclaim
    by_contra hfree
    exact ((hkeys key).mp ⟨hincoming, hfree⟩).2 hclaim
  · intro hnone key
    apply and_congr_right
    intro hincoming
    exact not_congr ⟨hclaimed hincoming, hnone key hincoming⟩

end Tables

/-- What the call needs of the reported skills and of the rows there are: the missing skills can be
inserted, no two builtin rows that stay have one key, and no key is claimed by a blank path. -/
structure Consistent (uuid5 : CodePoints → CodePoints) (agentId : CodePoints)
    (skills : List JsonText.Value) (t : SkillTables) : Prop where
  insertable : Insertable uuid5 agentId skills t
  single : (keptBuiltinKeys skills t).Nodup
  claims : NoBlankClaims skills t

theorem reconciles_iff (uuid5 : CodePoints → CodePoints) (agentId : CodePoints)
    (skills : List JsonText.Value) (now : ℤ) (t : SkillTables) :
    Reconciles uuid5 agentId skills now t ↔ Consistent uuid5 agentId skills t := by
  constructor
  · rintro ⟨t', hrun, hrows, -⟩
    have hinsertable := insertable_of_replace hrun
    obtain ⟨left, hleft, hleaves⟩ := replace_leaves hinsertable now
    cases hrun.symm.trans hleft
    have h : Leaves uuid5 agentId skills now t t' := hleaves
    exact ⟨hinsertable, h.nodup_iff.mp hrows.single, h.keys_iff.mp hrows.keys⟩
  · intro hc
    obtain ⟨t', hrun, hleaves⟩ := replace_leaves hc.insertable now
    have h : Leaves uuid5 agentId skills now t t' := hleaves
    refine ⟨t', hrun, ⟨h.keys_iff.mpr hc.claims, h.nodup_iff.mpr hc.single, h.nonBuiltin⟩, ?_⟩
    exact h.again hc.insertable.texts

inductive SkillCall where
  | replace (skills : List JsonText.Value) (now : ℤ)
  | upsert (skillId : CodePoints) (row : AgentSkill)

def afterCalls (uuid5 : CodePoints → CodePoints) (agentId : CodePoints) (calls : List SkillCall) :
    SkillTables :=
  calls.foldl (fun t call =>
    match call with
    | .replace skills now =>
      (replaceInstalledAgentSkillsFromRuntime uuid5 agentId skills now t).getD t
    | .upsert skillId row => upsertInstalledAgentSkill skillId row t) ⟨.empty, .empty⟩

/-- A skill that was synced under both schemes of ids keeps two rows. -/
theorem two_schemes_keep_two_rows :
    ¬ ∀ uuid5 : CodePoints → CodePoints, Function.Injective uuid5 →
      ∀ (agentId : CodePoints) (calls : List SkillCall) (skills : List JsonText.Value) (now : ℤ),
        Reconciles uuid5 agentId skills now (afterCalls uuid5 agentId calls) := by
  intro h
  let skills : List JsonText.Value :=
    [.obj [(text "name", .str (text "n")), (text "filePath", .str (text "p"))]]
  let row : AgentSkill :=
    ⟨.builtin, none, text "n", some (text "p"), none, none, none, 1⟩
  let t := afterCalls id (text "g") [.replace skills 0, .upsert (text "builtin:g:n") row]
  obtain ⟨t', hrun, hrows, -⟩ := h id Function.injective_id (text "g")
    [.replace skills 0, .upsert (text "builtin:g:n") row] skills 2
  have htwice : (replaceInstalledAgentSkillsFromRuntime id (text "g") skills 2 t).map
      (fun t' => decide (builtinKeys t').Nodup) = some false := by decide +kernel
  rw [hrun, Option.map_some, decide_eq_true hrows.single] at htwice
  cases htwice

end RuntimeSkills

end WittyService

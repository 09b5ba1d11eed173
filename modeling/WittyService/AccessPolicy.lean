import WittyService.ChannelCredentialStore

/-! The access policy: what the router decides on the record of the repository, and what the rule
decides on the stored values. -/
namespace WittyService

open JsonText Utf8Text

def MODE_OPEN : CodePoints := text "open"
def MODE_ALLOWLIST : CodePoints := text "allowlist"
def MODES : List CodePoints := [ MODE_OPEN, MODE_ALLOWLIST]

structure AccessPolicy where
  mode : CodePoints
  allowlist : List CodePoints
  allowCommands : Bool

structure AccessDecision where
  allowed : Bool
  reason : String
  deriving DecidableEq, Repr

namespace AccessPolicy

def ALLOW : AccessDecision := ⟨true, "mode_open"⟩
def DENY_UNAVAILABLE : AccessDecision := ⟨false, "policy_unavailable"⟩
def DENY_INVALID : AccessDecision := ⟨false, "policy_invalid"⟩

def opened : AccessPolicy := ⟨MODE_OPEN, [], true⟩

def stringOf : JsonText.Value → Option CodePoints
  | .str s => some s
  | _ => none

/-- `_parse_allowlist`. A text is read as JSON again. -/
def parseAllowlist : JsonText.Value → Option (List CodePoints)
  | .null => some []
  | .str raw =>
    match _h : loads raw with
    | none => none
    | some decoded => parseAllowlist decoded
  | .arr items => items.mapM stringOf
  | _ => none
termination_by v => match v with
  | .str s => s.length + 1
  | _ => 0
decreasing_by
  cases decoded with
  | str s => exact Nat.succ_lt_succ (length_loads _h)
  | _ => exact Nat.succ_pos _

variable (normalize : CodePoints → CodePoints) (py : Interpreter)

/-- `parse_policy`, where `normalize` is `mode.strip().lower()`. -/
def parsePolicy (mode allowlist allowCommands : JsonText.Value) : Option AccessPolicy :=
  match mode with
  | .str mode =>
    if normalize mode ∈ MODES then
      match parseAllowlist allowlist, allowCommands with
      | some entries, .bool allowCommands => some ⟨normalize mode, entries, allowCommands⟩
      | _, _ => none
    else none
  | _ => none

/-- `decide`, which looks neither at the kind of the conversation nor at the kind of message. -/
def decideAccess (policy : Option AccessPolicy) (_conversationType user : CodePoints)
    (_isCommand : Bool) : AccessDecision :=
  match policy with
  | none => DENY_UNAVAILABLE
  | some policy =>
    if policy.mode = MODE_OPEN then ALLOW
    else if policy.mode = MODE_ALLOWLIST then
      if policy.allowlist = [] then ⟨false, "empty_allowlist"⟩
      else if user ∈ policy.allowlist then ⟨true, "allowlist_hit"⟩
      else ⟨false, "allowlist_miss"⟩
    else DENY_INVALID

/-- The values in a row of `channel_access_policies`. -/
structure Stored where
  mode : JsonText.Value
  allowlist : JsonText.Value
  allowCommands : JsonText.Value

def decideRaw (stored : Stored) (conversationType user : CodePoints) (isCommand : Bool) :
    AccessDecision :=
  decideAccess (parsePolicy normalize stored.mode stored.allowlist stored.allowCommands)
    conversationType user isCommand

def truthy : JsonText.Value → Bool
  | .null | .bool false | .str [] | .arr [] | .obj [] => false
  | .num literal => py.truthy literal
  | _ => true

/-- `list(value or [])`, which raises for a number and for `true`. -/
def listOf (v : JsonText.Value) : Option (List JsonText.Value) :=
  if truthy py v then
    match v with
    | .arr items => some items
    | .str s => some (s.map fun c => .str [c])
    | .obj members => some (((members.map Prod.fst).dedup).map .str)
    | _ => none
  else some []

structure Record where
  mode : JsonText.Value
  allowlist : List JsonText.Value
  allowCommands : Bool

/-- `_to_access_policy_record`. -/
def toRecord (stored : Stored) : Option Record :=
  (listOf py stored.allowlist).map fun allowlist =>
    ⟨stored.mode, allowlist, truthy py stored.allowCommands⟩

/-- The decision in `_admit`, or none when the repository raises; without a row everybody may
speak. -/
def decisionOf (stored : Option Stored) (conversationType user : CodePoints) (isCommand : Bool) :
    Option AccessDecision :=
  match stored with
  | none => some (decideAccess (some opened) conversationType user isCommand)
  | some stored =>
    (toRecord py stored).map fun record =>
      decideAccess
        (parsePolicy normalize record.mode (.arr record.allowlist) (.bool record.allowCommands))
        conversationType user isCommand

def admitMessage (stored : Option Stored) (conversationType user : CodePoints) (isCommand : Bool) :
    Option Bool :=
  (decisionOf normalize py stored conversationType user isCommand).map AccessDecision.allowed

/-- The router decides on this row as the rule does, whoever sends whatever. -/
def DecidesAsStored (stored : Stored) : Prop :=
  ∀ conversationType user isCommand,
    decisionOf normalize py (some stored) conversationType user isCommand =
      some (decideRaw normalize stored conversationType user isCommand)

def modeOf : JsonText.Value → Option CodePoints
  | .str mode => if normalize mode ∈ MODES then some (normalize mode) else none
  | _ => none

/-- The values are kept by the record as the rule reads them: an array with an entry that is no
text, or, with a boolean beside it, nothing, an array, or a text that is a JSON list, which is
then its list of characters unless everybody is allowed. -/
def Kept (mode : CodePoints) (stored : Stored) : Prop :=
  match stored.allowlist with
  | .null => ∃ b, stored.allowCommands = .bool b
  | .arr items => (∃ item ∈ items, stringOf item = none) ∨ ∃ b, stored.allowCommands = .bool b
  | .str raw => (∃ b, stored.allowCommands = .bool b) ∧ ∃ entries,
      parseAllowlist (.str raw) = some entries ∧
        (mode = MODE_ALLOWLIST → ∀ user, user ∈ entries ↔ ∃ c ∈ raw, user = [c])
  | _ => False

/-- The stored values are not changed on their way to the policy. -/
def WellStored (stored : Stored) : Prop :=
  match modeOf normalize stored.mode with
  | none => (listOf py stored.allowlist).isSome
  | some mode => Kept mode stored

section Decisions

variable {normalize py} {mode : CodePoints} {v : JsonText.Value}

theorem parseAllowlist_arr (items : List JsonText.Value) :
    parseAllowlist (.arr items) = items.mapM stringOf := by
  rw [parseAllowlist]

theorem mapM_strings (entries : List CodePoints) :
    (entries.map JsonText.Value.str).mapM stringOf = some entries := by
  induction entries with
  | nil => rfl
  | cons entry entries ih =>
    rw [List.map_cons, List.mapM_cons, ih]
    rfl

variable {items : List JsonText.Value} {stored : Stored} {entries : List CodePoints}

theorem mapM_eq_none :
    items.mapM stringOf = none ↔ ∃ item ∈ items, stringOf item = none := by
  induction items with
  | nil =>
    constructor
    · exact nofun
    · rintro ⟨item, hitem, -⟩
      cases hitem
  | cons item items ih =>
    rw [List.mapM_cons]
    cases hitem : stringOf item with
    | none => exact iff_of_true rfl ⟨item, List.mem_cons_self, hitem⟩
    | some entry =>
      have hhead : ¬ stringOf item = none := by
        rw [hitem]
        exact nofun
      simp only [List.mem_cons, exists_eq_or_imp, hhead, false_or, ← ih]
      cases items.mapM stringOf with
      | none => exact iff_of_true rfl rfl
      | some entries => exact iff_of_false nofun nofun

theorem parsePolicy_unknown (hmode : modeOf normalize v = none)
    (allowlist allowCommands : JsonText.Value) :
    parsePolicy normalize v allowlist allowCommands = none := by
  unfold modeOf at hmode
  unfold parsePolicy
  split at hmode
  · split_ifs at hmode with hknown
    rw [if_neg hknown]
  · rfl

theorem parsePolicy_known (hmode : modeOf normalize v = some mode)
    (allowlist allowCommands : JsonText.Value) :
    parsePolicy normalize v allowlist allowCommands =
      match parseAllowlist allowlist, allowCommands with
      | some entries, .bool allowCommands => some ⟨mode, entries, allowCommands⟩
      | _, _ => none := by
  unfold modeOf at hmode
  split at hmode
  · split_ifs at hmode with hknown
    cases hmode
    unfold parsePolicy
    dsimp only
    rw [if_pos hknown]
  · cases hmode

theorem mem_modes (hmode : modeOf normalize v = some mode) :
    mode = MODE_OPEN ∨ mode = MODE_ALLOWLIST := by
  unfold modeOf at hmode
  split at hmode
  · split_ifs at hmode with hknown
    cases hmode
    simpa [ MODES] using hknown
  · cases hmode

theorem decideAccess_some (policy : AccessPolicy) (conversationType user : CodePoints)
    (isCommand : Bool) :
    decideAccess (some policy) conversationType user isCommand ≠ DENY_UNAVAILABLE := by
  unfold decideAccess
  dsimp only
  split_ifs <;> decide

theorem modes_apart : MODE_ALLOWLIST ≠ MODE_OPEN := by decide

theorem decideAccess_same (hmode : mode = MODE_OPEN ∨ mode = MODE_ALLOWLIST)
    (entries entries' : List CodePoints) (b b' : Bool) :
    (∀ conversationType user isCommand,
      decideAccess (some ⟨mode, entries', b'⟩) conversationType user isCommand =
        decideAccess (some ⟨mode, entries, b⟩) conversationType user isCommand) ↔
      (mode = MODE_ALLOWLIST → ∀ user, user ∈ entries ↔ user ∈ entries') := by
  rcases hmode with rfl | rfl
  · refine iff_of_true (fun _ _ _ => ?_) fun h => absurd h.symm modes_apart
    rfl
  unfold decideAccess
  simp only [modes_apart, if_false, if_true, forall_const]
  constructor
  · intro h user
    have huser := h user
    split_ifs at huser
    all_goals simp_all
  · intro h user
    have hnil : entries = [] ↔ entries' = [] := by
      simp only [List.eq_nil_iff_forall_not_mem, h]
    simp only [hnil, h user]

theorem listOf_arr (items : List JsonText.Value) : listOf py (.arr items) = some items := by
  cases items with
  | nil | cons item items => rfl

theorem listOf_str (raw : CodePoints) :
    listOf py (.str raw) = some ((raw.map fun c => [c]).map JsonText.Value.str) := by
  cases raw with
  | nil => rfl
  | cons c raw => simp [listOf, truthy]

theorem listOf_strings {l : List JsonText.Value} (h : listOf py v = some l)
    (harr : ∀ items, v ≠ .arr items) :
    ∃ entries : List CodePoints, l = entries.map JsonText.Value.str := by
  unfold listOf at h
  split_ifs at h with htruthy
  · split at h
    · rename_i items
      exact absurd rfl (harr items)
    · rename_i s
      cases h
      exact ⟨s.map fun c => [c], by rw [List.map_map]; rfl⟩
    · cases h
      exact ⟨_, rfl⟩
    · cases h
  · cases h
    exact ⟨[], rfl⟩

theorem decisionOf_strings (hmode : modeOf normalize stored.mode = some mode)
    (hlist : listOf py stored.allowlist = some (entries.map JsonText.Value.str))
    (conversationType user : CodePoints) (isCommand : Bool) :
    decisionOf normalize py (some stored) conversationType user isCommand =
      some (decideAccess (some ⟨mode, entries, truthy py stored.allowCommands⟩) conversationType
        user isCommand) := by
  unfold decisionOf toRecord
  dsimp only
  rw [hlist]
  simp only [Option.map_some, parsePolicy_known hmode, parseAllowlist_arr, mapM_strings]

theorem not_decidesAsStored (hmode : modeOf normalize stored.mode = some mode)
    (harr : ∀ items, stored.allowlist ≠ .arr items)
    (hrule : parsePolicy normalize stored.mode stored.allowlist stored.allowCommands = none) :
    ¬ DecidesAsStored normalize py stored := by
  intro h
  have hdecides := h [] [] false
  unfold decideRaw at hdecides
  rw [hrule] at hdecides
  cases hlist : listOf py stored.allowlist with
  | none =>
    unfold decisionOf toRecord at hdecides
    dsimp only at hdecides
    rw [hlist] at hdecides
    cases hdecides
  | some l =>
    obtain ⟨entries, rfl⟩ := listOf_strings hlist harr
    rw [decisionOf_strings hmode hlist] at hdecides
    exact decideAccess_some _ _ _ _ (Option.some.inj hdecides)

section

variable (hmode : modeOf normalize v = some mode) {allowlist allowCommands : JsonText.Value}
include hmode

theorem parsePolicy_bool (h : ∀ b, allowCommands ≠ .bool b) :
    parsePolicy normalize v allowlist allowCommands = none := by
  rw [parsePolicy_known hmode]
  split
  · exact absurd rfl (h _)
  · rfl

theorem parsePolicy_allowlist (h : parseAllowlist allowlist = none) :
    parsePolicy normalize v allowlist allowCommands = none := by
  rw [parsePolicy_known hmode, h]

end

theorem decides_arr (hmode : modeOf normalize stored.mode = some mode)
    (harr : stored.allowlist = .arr items) :
    DecidesAsStored normalize py stored ↔
      (∃ item ∈ items, stringOf item = none) ∨ ∃ b, stored.allowCommands = .bool b := by
  have hrouter (conversationType user : CodePoints) (isCommand : Bool) :
      decisionOf normalize py (some stored) conversationType user isCommand =
        some (decideAccess (parsePolicy normalize stored.mode (.arr items)
          (.bool (truthy py stored.allowCommands))) conversationType user isCommand) := by
    unfold decisionOf toRecord
    dsimp only
    rw [harr, listOf_arr]
    rfl
  unfold DecidesAsStored decideRaw
  simp only [hrouter, Option.some.injEq, harr, parsePolicy_known hmode, parseAllowlist_arr]
  cases hentries : items.mapM stringOf with
  | none => exact iff_of_true (fun _ _ _ => rfl) (.inl (mapM_eq_none.mp hentries))
  | some entries =>
    have hmixed : ¬ ∃ item ∈ items, stringOf item = none := by
      rw [← mapM_eq_none, hentries]
      exact nofun
    rw [or_iff_right hmixed]
    dsimp only
    constructor
    · intro h
      by_contra hbool
      push Not at hbool
      have hdecides := h [] [] false
      split at hdecides
      · exact hbool _ ‹_›
      · exact decideAccess_some _ _ _ _ hdecides
    · rintro ⟨b, hb⟩ conversationType user isCommand
      rw [hb]
      exact (decideAccess_same (mem_modes hmode) entries entries b
        (truthy py (.bool b))).mpr (fun _ _ => Iff.rfl) conversationType user isCommand

theorem decides_strings (hmode : modeOf normalize stored.mode = some mode)
    (hlist : listOf py stored.allowlist = some (entries.map JsonText.Value.str))
    (harr : ∀ items, stored.allowlist ≠ .arr items) :
    DecidesAsStored normalize py stored ↔ (∃ b, stored.allowCommands = .bool b) ∧
      ∃ read, parseAllowlist stored.allowlist = some read ∧
        (mode = MODE_ALLOWLIST → ∀ user, user ∈ read ↔ user ∈ entries) := by
  by_cases hbool : ∃ b, stored.allowCommands = .bool b
  · obtain ⟨b, hb⟩ := hbool
    cases hread : parseAllowlist stored.allowlist with
    | none =>
      apply iff_of_false (not_decidesAsStored hmode harr (parsePolicy_allowlist hmode hread))
      rintro ⟨-, read, ⟨⟩, -⟩
    | some read =>
      have hpolicy : parsePolicy normalize stored.mode stored.allowlist stored.allowCommands =
          some ⟨mode, read, b⟩ := by
        rw [parsePolicy_known hmode, hread, hb]
      have hsame := decideAccess_same (mem_modes hmode) read entries b
        (truthy py stored.allowCommands)
      unfold DecidesAsStored decideRaw
      simp only [decisionOf_strings hmode hlist, hpolicy, Option.some.injEq]
      rw [hsame]
      constructor
      · exact fun h => ⟨⟨b, hb⟩, read, rfl, h⟩
      · rintro ⟨-, other, hother, h⟩
        cases hother
        exact h
  · apply iff_of_false _ fun h => hbool h.1
    apply not_decidesAsStored hmode harr
    apply parsePolicy_bool hmode
    exact fun b hb => hbool ⟨b, hb⟩

end Decisions

/-- The router decides as the rule on the stored values exactly when they are well stored. -/
theorem decidesAsStored_iff (normalize : CodePoints → CodePoints) (py : Interpreter)
    (stored : Stored) : DecidesAsStored normalize py stored ↔ WellStored normalize py stored := by
  unfold WellStored
  cases hmode : modeOf normalize stored.mode with
  | none =>
    unfold DecidesAsStored decisionOf decideRaw toRecord
    simp only [parsePolicy_unknown hmode]
    cases listOf py stored.allowlist with
    | none => exact iff_of_false (fun h => nomatch h [] [] false) nofun
    | some l =>
      refine iff_of_true (fun _ _ _ => ?_) rfl
      simp [parsePolicy_unknown hmode]
  | some mode =>
    unfold Kept
    cases hlist : stored.allowlist with
    | arr items => exact decides_arr hmode hlist
    | null =>
      have hrecord : listOf py stored.allowlist =
          some (([] : List CodePoints).map JsonText.Value.str) := by
        rw [hlist]
        rfl
      rw [decides_strings hmode hrecord (by rw [hlist]; exact nofun), hlist]
      refine and_iff_left ⟨[], ?_, fun _ _ => Iff.rfl⟩
      rw [parseAllowlist]
    | str raw =>
      have hrecord : listOf py stored.allowlist =
          some ((raw.map fun c => [c]).map JsonText.Value.str) := by
        rw [hlist]
        exact listOf_str raw
      rw [decides_strings hmode hrecord (by rw [hlist]; exact nofun), hlist]
      simp only [List.mem_map, eq_comm]
    | bool b | num b | obj b =>
      apply iff_of_false _ id
      apply not_decidesAsStored hmode
      · rw [hlist]
        exact nofun
      · rw [hlist]
        apply parsePolicy_allowlist hmode
        rw [parseAllowlist] <;> exact nofun

/-- A sender is let in by an object that has the sender's id among its keys. -/
theorem object_keys_admitted :
    ¬ ∀ (normalize : CodePoints → CodePoints) (py : Interpreter) (stored : Stored)
      (conversationType user : CodePoints) (isCommand : Bool),
      admitMessage normalize py (some stored) conversationType user isCommand =
        some (decideRaw normalize stored conversationType user isCommand).allowed := by
  intro h
  let stored : Stored := ⟨.str MODE_ALLOWLIST, .obj [(text "u", .null)], .bool true⟩
  let py : Interpreter := ⟨fun _ => [], fun _ => false, fun _ => false⟩
  have hmode : modeOf id stored.mode = some MODE_ALLOWLIST := by decide
  have hlist : listOf py stored.allowlist = some ([text "u"].map JsonText.Value.str) := by rfl
  have hread : parseAllowlist stored.allowlist = none := by
    rw [parseAllowlist] <;> exact nofun
  have hadmit := h id py stored [] (text "u") false
  unfold admitMessage decideRaw at hadmit
  rw [decisionOf_strings hmode hlist, parsePolicy_allowlist hmode hread] at hadmit
  revert hadmit
  decide

end AccessPolicy

end WittyService

import WittyService.ReplyRows

/-! Turns one after the other: who has the stream, and which reply a regeneration chooses. -/
namespace WittyService

namespace SessionTurns

variable {s s' : SessionTurns}

def createsMessage (ws : Workspace) (a : Arrival) : Bool :=
  !a.raisesEarly && (a.event.eventType.isError ||
    !a.event.eventType.isSessionEvent && (normalizeArtifactEvent ws a.event).isSome)

theorem receive_creates {c : Consumer} {ws : Workspace} {a : Arrival} {endedAt : Int}
    (h : (c.receive ws a endedAt).1.assistantMsgId = true) :
    c.assistantMsgId = true ∨ createsMessage ws a = true := by
  have hreceive : (c.receive ws a endedAt).1.assistantMsgId =
      (c.react ws a).consumer.assistantMsgId := by
    unfold Consumer.receive
    dsimp only
    split
    · rfl
    · rfl
    · next status _ => exact Consumer.finalizeAbnormalTurn_id _ status endedAt
  rw [hreceive] at h
  unfold Consumer.react at h
  split_ifs at h with hraises herror hsession
  · exact .inl h
  · cases hdict : a.event.payload.isDict with
    | true =>
      right
      simp [createsMessage, Arrival.raisesEarly, hraises, herror, hdict]
    | false =>
      rw [Consumer.takeUpError_other c hdict] at h
      exact .inl h
  · exact .inl h
  · split at h
    · exact .inl h
    · next heq =>
      right
      simp [createsMessage, Arrival.raisesEarly, hraises, herror, hsession, heq]

/-- The turn has its stream, reserved or running. -/
def holdsStream (t : SessionTurn) : Prop :=
  t.stage = .running ∨ t.stage = .preparing ∧ t.streamGen.isSome

/-- `created_at` of all messages so far is before `createdAt`. -/
def Later (s : SessionTurns) (createdAt : Int) : Prop :=
  ∀ m x, s.messages m = some x → x.createdAt < createdAt

/-- A message gets a later `created_at` than all before it; a message that is sent starts its
stream when no other turn has one; and a reply is created while the message it answers is the
last one the user has sent. -/
def OrderlyTurns (ws : Workspace) (s : SessionTurns) : SessionAction → Prop
  | .send _ createdAt _ => Later s createdAt
  | .prepared k _ _ => ∀ t, s.turns k = some t → t.streamGen = none →
      ∀ k' u, k' ≠ k → s.turns k' = some u → ¬ holdsStream u
  | .event k a _ createdAt _ => createsMessage ws a = true → ∀ t, s.turns k = some t →
      t.assistantMsgId = none → Later s createdAt ∧
        ∀ m x, s.messages m = some x → x.isUser = true → m ≤ t.prompt
  | _ => True

/-- At most one turn has a stream, and then the registry shows it. -/
structure StreamHeld (s : SessionTurns) : Prop where
  one : ∀ k k' t t', s.turns k = some t → s.turns k' = some t' → holdsStream t →
    holdsStream t' → k = k'
  active : ∀ k t, s.turns k = some t → holdsStream t →
    s.registry.isActive = true ∧ s.registry.generation = t.streamGen

def outline (s : SessionTurns) (m : Nat) : Option (MessageRole × Int) :=
  (s.messages m).map fun x => (x.role, x.createdAt)

/-- The messages are stamped in order, and a reply comes after the message it answers and
before the next one. -/
structure AnswersOrdered (s : SessionTurns) : Prop where
  stamps : ∀ m m' r r' c c', s.outline m = some (r, c) → s.outline m' = some (r', c') → m < m' →
    c < c'
  answers : ∀ m c, s.outline m = some (.assistant, c) → ∃ p c', s.answered m = some p ∧ p < m ∧
    s.outline p = some (.user, c') ∧ ∀ u d, s.outline u = some (.user, d) → u ≤ p ∨ m < u
  prompts : ∀ k t, s.turns k = some t → ∃ c, s.outline t.prompt = some (.user, c)

variable {m k : Nat} {r : MessageRole} {t t' : SessionTurn} {createdAt : Int}

theorem outline_some {c : Int} : s.outline m = some (r, c) ↔
    ∃ x, s.messages m = some x ∧ x.role = r ∧ x.createdAt = c := by
  simp [outline, Option.map_eq_some_iff, Prod.mk.injEq]

theorem answersOrdered_of_outline (h : AnswersOrdered s)
    (houtline : ∀ m, s'.outline m = s.outline m) (hanswered : s'.answered = s.answered)
    (hprompts : ∀ k t, s'.turns k = some t → ∃ k' t', s.turns k' = some t' ∧
      t'.prompt = t.prompt) : AnswersOrdered s' := by
  refine ⟨fun m m' r r' c c' hm hm' => ?_, fun m c hm => ?_, fun k t hturn => ?_⟩
  · rw [houtline] at hm hm'
    exact h.stamps m m' r r' c c' hm hm'
  · rw [houtline] at hm
    obtain ⟨p, c', hp, hlt, hprompt, hlast⟩ := h.answers m c hm
    refine ⟨p, c', hanswered ▸ hp, hlt, (houtline p).trans hprompt, fun u d hu => ?_⟩
    rw [houtline] at hu
    exact hlast u d hu
  · obtain ⟨k', t', hturn', hprompt⟩ := hprompts k t hturn
    obtain ⟨c, hc⟩ := h.prompts k' t' hturn'
    exact ⟨c, by rw [houtline, ← hprompt, hc]⟩

theorem prompt_is_answered (hj : RepliesTracked s) (h : AnswersOrdered s) {p : Nat}
    {reply : SessionMessage} (hreply : s.messages m = some reply)
    (hassistant : reply.isAssistant = true)
    (hlast : s.isLast (fun message => message.isUser && message.createdAt ≤ reply.createdAt)
      (some p) = true) : s.answered m = some p := by
  have hreply' : s.outline m = some (.assistant, reply.createdAt) :=
    outline_some.mpr ⟨reply, hreply, eq_of_beq hassistant, rfl⟩
  obtain ⟨p', c', hanswered, hlt, hprompt, hbetween⟩ := h.answers m reply.createdAt hreply'
  obtain ⟨q, hq, hmeets, hall⟩ := isLast_some hlast
  simp only [Bool.and_eq_true, decide_eq_true_eq] at hmeets hall
  have hq' : s.outline p = some (.user, q.createdAt) :=
    outline_some.mpr ⟨q, hq, eq_of_beq hmeets.1, rfl⟩
  have hle : p ≤ p' := by
    rcases hbetween p q.createdAt hq' with hle | hafter
    · exact hle
    · have hstamp := h.stamps m p _ _ _ _ hreply' hq' hafter
      omega
  have hge : ¬ p < p' := by
    intro hbefore
    have hstamp := h.stamps p p' _ _ _ _ hq' hprompt hbefore
    have hstamp' := h.stamps p' m _ _ _ _ hprompt hreply' hlt
    obtain ⟨x, hx, hrole, hcreated⟩ := outline_some.mp hprompt
    have hcount : p' < s.messageCount := by
      by_contra hout
      rw [(hj.fresh p' (by omega)).1] at hx
      cases hx
    have huser : x.isUser = true := by
      unfold SessionMessage.isUser
      rw [hrole]
      rfl
    have hmax := hall p' x hcount hx ⟨huser, by omega⟩
    omega
  have heq : p = p' := by omega
  rw [heq]
  exact hanswered

theorem streamHeld_addTurn (h : StreamHeld s)
    (hfree : ¬ holdsStream t) : StreamHeld (s.addTurn t) := by
  refine ⟨fun k k' u u' hu hu' hk hk' => ?_, fun k u hu hk => ?_⟩
  · rcases update_some_cases hu with ⟨-, rfl⟩ | ⟨-, hu⟩
    · exact absurd hk hfree
    · rcases update_some_cases hu' with ⟨-, rfl⟩ | ⟨-, hu'⟩
      · exact absurd hk' hfree
      · exact h.one k k' u u' hu hu' hk hk'
  · rcases update_some_cases hu with ⟨-, rfl⟩ | ⟨-, hu⟩
    · exact absurd hk hfree
    · exact h.active k u hu hk

section

variable {k : Nat} {t : SessionTurn}
  (hothers : ∀ k' u, k' ≠ k → s.turns k' = some u → ¬ holdsStream u)
include hothers

theorem streamHeld_only (hturns : s'.turns = Function.update s.turns k (some t))
    (hactive : s'.registry.isActive = true) (hgeneration : s'.registry.generation = t.streamGen) :
    StreamHeld s' := by
  refine ⟨fun k₁ k₂ u₁ u₂ hu₁ hu₂ hk₁ hk₂ => ?_, fun k' u hu hk => ?_⟩
  · rw [hturns] at hu₁ hu₂
    rcases update_some_cases hu₁ with ⟨h₁, -⟩ | ⟨hne, hu₁⟩
    · rcases update_some_cases hu₂ with ⟨h₂, -⟩ | ⟨hne, hu₂⟩
      · omega
      · exact absurd hk₂ (hothers k₂ u₂ hne hu₂)
    · exact absurd hk₁ (hothers k₁ u₁ hne hu₁)
  · rw [hturns] at hu
    rcases update_some_cases hu with ⟨-, rfl⟩ | ⟨hne, hu⟩
    · exact ⟨hactive, hgeneration⟩
    · exact absurd hk (hothers k' u hne hu)

theorem streamHeld_none (hfree : ¬ holdsStream t)
    (hturns : s'.turns = Function.update s.turns k (some t)) : StreamHeld s' := by
  have hnone : ∀ k' u, s'.turns k' = some u → ¬ holdsStream u := by
    intro k' u hu
    rw [hturns] at hu
    rcases update_some_cases hu with ⟨-, rfl⟩ | ⟨hne, hu⟩
    · exact hfree
    · exact hothers k' u hne hu
  exact ⟨fun k' _ u _ hu _ hk _ => absurd hk (hnone k' u hu), fun k' u hu hk =>
    absurd hk (hnone k' u hu)⟩

end

theorem others_free (h : StreamHeld s) (hturn : s.turns k = some t)
    (hk : holdsStream t) : ∀ k' u, k' ≠ k → s.turns k' = some u → ¬ holdsStream u :=
  fun k' u hne hu hk' => hne (h.one k' k u t hu hturn hk' hk)

theorem none_held (h : StreamHeld s) (hactive : s.registry.isActive = false) :
    ∀ k u, s.turns k = some u → ¬ holdsStream u := by
  intro k u hu hk
  rw [(h.active k u hu hk).1] at hactive
  cases hactive

section

variable (h : StreamHeld s) {k : Nat} {t : SessionTurn} (hturn : s.turns k = some t)
include h hturn

theorem streamHeld_advance (hrun : t.stage = .running) {c' : Consumer} {id' : Option Nat}
    {isOver : Bool} (hturns : s'.turns = Function.update s.turns k (some (moved t c' id' isOver)))
    (hregistry : s'.registry = if isOver then s.registry.endStream.cleanup else s.registry) :
    StreamHeld s' := by
  have hk : holdsStream t := .inl hrun
  have hothers := others_free h hturn hk
  cases isOver with
  | true => exact streamHeld_none hothers (by simp [holdsStream, moved]) hturns
  | false =>
    obtain ⟨hactive, hgeneration⟩ := h.active k t hturn hk
    have hsame : s'.registry = s.registry := hregistry
    rw [← hsame] at hactive hgeneration
    exact streamHeld_only hothers hturns hactive hgeneration

theorem streamHeld_prepared (hprep : t.stage = .preparing)
    (hsend : t.streamGen = none → ∀ k' u, k' ≠ k → s.turns k' = some u → ¬ holdsStream u)
    (lastCheckpointTime lastFlushTime : Int) :
    StreamHeld (s.prepared k t lastCheckpointTime lastFlushTime) := by
  cases hgen : t.streamGen with
  | none =>
    refine streamHeld_only (hsend hgen) rfl ?_ ?_
    · simp only [prepared, hgen]
      exact SessionStreamRegistry.isActive_subscribe _
    · simp only [prepared, hgen]
      rfl
  | some g =>
    have hk : holdsStream t := .inr ⟨hprep, by rw [hgen]; rfl⟩
    obtain ⟨hactive, hgeneration⟩ := h.active k t hturn hk
    refine streamHeld_only (others_free h hturn hk) rfl ?_ ?_
    · simp only [prepared, hgen, SessionStreamRegistry.isActive_subscribe]
      rw [((SessionStreamRegistry.isActive_iff _).mp hactive).2]
      rfl
    · simp only [prepared, hgen]
      exact hgeneration.trans hgen

theorem streamHeld_prepareFails (hprep : t.stage = .preparing) :
    StreamHeld (s.prepareFails k t) := by
  cases hgen : t.streamGen with
  | some g =>
    have hk : holdsStream t := .inr ⟨hprep, by rw [hgen]; rfl⟩
    exact streamHeld_none (others_free h hturn hk) (by simp [holdsStream]) rfl
  | none =>
    have hregistry : (s.prepareFails k t).registry = s.registry := by
      simp only [prepareFails, hgen]
    refine ⟨fun k₁ k₂ u₁ u₂ hu₁ hu₂ hk₁ hk₂ => ?_, fun k' u hu hk => ?_⟩
    · rcases update_some_cases hu₁ with ⟨-, rfl⟩ | ⟨-, hu₁⟩
      · simp [holdsStream] at hk₁
      · rcases update_some_cases hu₂ with ⟨-, rfl⟩ | ⟨-, hu₂⟩
        · simp [holdsStream] at hk₂
        · exact h.one k₁ k₂ u₁ u₂ hu₁ hu₂ hk₁ hk₂
    · rcases update_some_cases hu with ⟨-, rfl⟩ | ⟨-, hu⟩
      · simp [holdsStream] at hk
      · rw [hregistry]
        exact h.active k' u hu hk

end

theorem streamHeld_same (h : StreamHeld s) (hturns : s'.turns = s.turns)
    (hregistry : s'.registry = s.registry) : StreamHeld s' := by
  refine ⟨?_, ?_⟩
  · rw [hturns]
    exact h.one
  · rw [hturns, hregistry]
    exact h.active

theorem outline_lt (hj : RepliesTracked s) {v : MessageRole × Int}
    (h : s.outline m = some v) : m < s.messageCount := by
  by_contra hle
  rw [outline, (hj.fresh m (by omega)).1] at h
  cases h

theorem later_outline (hlater : Later s createdAt)
    {c : Int} (h : s.outline m = some (r, c)) : c < createdAt := by
  obtain ⟨x, hx, -, rfl⟩ := outline_some.mp h
  exact hlater m x hx

theorem answersOrdered_addMessage (hj : RepliesTracked s) (h : AnswersOrdered s)
    (hlater : Later s createdAt) (row : MessageRow) :
    AnswersOrdered (s.addMessage ⟨.user, createdAt, row⟩) := by
  have houtline : ∀ m v, (s.addMessage ⟨.user, createdAt, row⟩).outline m = some v →
      m = s.messageCount ∧ v = (.user, createdAt) ∨ m < s.messageCount ∧ s.outline m = some v := by
    intro m v hv
    by_cases hm : m = s.messageCount
    · rw [outline, hm, addMessage_self] at hv
      exact .inl ⟨hm, (Option.some.inj hv).symm⟩
    · rw [outline, addMessage_other _ hm] at hv
      exact .inr ⟨outline_lt hj hv, hv⟩
  have hold : ∀ m v, s.outline m = some v →
      (s.addMessage ⟨.user, createdAt, row⟩).outline m = some v := by
    intro m v hv
    have hm := outline_lt hj hv
    rw [outline, addMessage_other _ (by omega)]
    exact hv
  refine ⟨fun m m' r r' c c' hm hm' hlt => ?_, fun m c hm => ?_, fun k t hturn => ?_⟩
  · rcases houtline m' _ hm' with ⟨hnew', heq'⟩ | ⟨hlt', hm'⟩
    · rcases houtline m _ hm with ⟨hnew, -⟩ | ⟨-, hm⟩
      · omega
      · cases heq'
        exact later_outline hlater hm
    · rcases houtline m _ hm with ⟨hnew, -⟩ | ⟨-, hm⟩
      · omega
      · exact h.stamps m m' r r' c c' hm hm' hlt
  · rcases houtline m _ hm with ⟨-, heq⟩ | ⟨hlt, hm⟩
    · cases heq
    · obtain ⟨p, c', hp, hpm, hprompt, hbetween⟩ := h.answers m c hm
      refine ⟨p, c', hp, hpm, hold p _ hprompt, fun u d hu => ?_⟩
      rcases houtline u _ hu with ⟨hnew, -⟩ | ⟨-, hu⟩
      · omega
      · exact hbetween u d hu
  · obtain ⟨c, hc⟩ := h.prompts k t hturn
    exact ⟨c, hold _ _ hc⟩

theorem answersOrdered_addTurn (h : AnswersOrdered s)
    (hprompt : ∃ c, s.outline t.prompt = some (.user, c)) : AnswersOrdered (s.addTurn t) := by
  refine ⟨h.stamps, h.answers, fun k u hu => ?_⟩
  rcases update_some_cases hu with ⟨-, rfl⟩ | ⟨-, hu⟩
  · exact hprompt
  · exact h.prompts k u hu

theorem answersOrdered_advance (hj : RepliesTracked s) (h : AnswersOrdered s)
    {replaces : Option Nat} (hturn : s.turns k = some t)
    (hturns : s'.turns = Function.update s.turns k (some t')) (hprompt : t'.prompt = t.prompt)
    (hadvance : RowsAdvance s s' t.prompt t.assistantMsgId t'.assistantMsgId replaces createdAt)
    (husers : ∀ m x, s.messages m = some x → x.isUser = true → s'.messages m = some x)
    (hcreates : t.assistantMsgId = none → t'.assistantMsgId ≠ none → Later s createdAt ∧
      ∀ m x, s.messages m = some x → x.isUser = true → m ≤ t.prompt) : AnswersOrdered s' := by
  have hkept : ∀ m c, s.outline m = some (.user, c) → s'.outline m = some (.user, c) := by
    intro m c hm
    obtain ⟨x, hx, hrole, hc⟩ := outline_some.mp hm
    have huser : x.isUser = true := by
      unfold SessionMessage.isUser
      rw [hrole]
      rfl
    exact outline_some.mpr ⟨x, husers m x hx huser, hrole, hc⟩
  have houtline : ∀ m v, s'.outline m = some v → s.outline m = some v ∨
      m = s.messageCount ∧ v = (.assistant, createdAt) ∧ s'.answered m = some t.prompt ∧
        Later s createdAt ∧ ∀ u d, s.outline u = some (.user, d) → u ≤ t.prompt := by
    rintro m ⟨r, c⟩ hm
    obtain ⟨x, hx, rfl, rfl⟩ := outline_some.mp hm
    cases hx₀ : s.messages m with
    | some x₀ =>
      rcases hadvance.rows m x₀ hx₀ with ⟨row, hrow, -⟩ | ⟨hnone, -⟩
      · rw [hx] at hrow
        cases hrow
        exact .inl (outline_some.mpr ⟨x₀, hx₀, rfl, rfl⟩)
      · rw [hx] at hnone
        cases hnone
    | none =>
      obtain ⟨hid, hid'⟩ := hadvance.new m x hx₀ hx
      obtain ⟨hm, -, hanswered, x₁, hx₁, hassistant, hcreated⟩ := hadvance.born hid m hid'
      rw [hx] at hx₁
      cases hx₁
      obtain ⟨hlater, hlast⟩ := hcreates hid (by rw [hid']; nofun)
      refine .inr ⟨hm, ?_, hanswered, hlater, fun u d hu => ?_⟩
      · rw [eq_of_beq hassistant, hcreated]
      · obtain ⟨y, hy, hrole, -⟩ := outline_some.mp hu
        refine hlast u y hy ?_
        unfold SessionMessage.isUser
        rw [hrole]
        rfl
  obtain ⟨c₀, hc₀⟩ := h.prompts k t hturn
  refine ⟨fun m m' r r' c c' hm hm' hlt => ?_, fun m c hm => ?_, fun k' u hu => ?_⟩
  · rcases houtline m' _ hm' with hm' | ⟨hnew', heq', -, hlater, -⟩
    · rcases houtline m _ hm with hm | ⟨hnew, -⟩
      · exact h.stamps m m' r r' c c' hm hm' hlt
      · have hlt' := outline_lt hj hm'
        omega
    · rcases houtline m _ hm with hm | ⟨hnew, -⟩
      · cases heq'
        exact later_outline hlater hm
      · omega
  · rcases houtline m _ hm with hm | ⟨hnew, -, hanswered, -, hlast⟩
    · obtain ⟨p, c', hp, hpm, hprompt, hbetween⟩ := h.answers m c hm
      refine ⟨p, c', ?_, hpm, hkept p c' hprompt, fun u d hu => ?_⟩
      · rw [hadvance.answered m (outline_lt hj hm)]
        exact hp
      · rcases houtline u _ hu with hu | ⟨-, heq, -⟩
        · exact hbetween u d hu
        · cases heq
    · refine ⟨t.prompt, c₀, hanswered, hnew ▸ outline_lt hj hc₀, hkept _ _ hc₀, fun u d hu => ?_⟩
      rcases houtline u _ hu with hu | ⟨-, heq, -⟩
      · exact .inl (hlast u d hu)
      · cases heq
  · rw [hturns] at hu
    rcases update_some_cases hu with ⟨-, rfl⟩ | ⟨-, hu⟩
    · rw [hprompt]
      exact ⟨c₀, hkept _ _ hc₀⟩
    · obtain ⟨c, hc⟩ := h.prompts k' u hu
      exact ⟨c, hkept _ _ hc⟩

theorem choosesFinished_of_turns (hj : RepliesTracked s)
    (hturns : ∀ t, s'.turns s.turnCount = some t → s.turns s.turnCount = some t ∨
      t.supersededMessageId = none) : ChoosesFinished s s' := by
  intro t m ht hm
  rcases hturns t ht with hold | hnone
  · rw [hj.noTurn _ (Nat.le_refl _)] at hold
    cases hold
  · rw [hnone] at hm
    cases hm

theorem choosesFinished_update (hj : RepliesTracked s)
    (hturn : s.turns k = some t) (hturns : s'.turns = Function.update s.turns k (some t')) :
    ChoosesFinished s s' := by
  apply choosesFinished_of_turns hj
  intro u hu
  rw [hturns] at hu
  rcases update_some_cases hu with ⟨heq, -⟩ | ⟨-, hu⟩
  · have hlt := turn_lt hj hturn
    omega
  · exact .inl hu

structure Orderly (s : SessionTurns) : Prop where
  replies : RepliesTracked s
  rows : RowsTracked s
  stream : StreamHeld s
  order : AnswersOrdered s

section

variable (ho : Orderly s) {k : Nat} {t : SessionTurn} (hturn : s.turns k = some t)
  (hrun : t.stage = .running)
include ho hturn hrun

variable {rest : List MessageCall}

theorem orderly_advance (c' : Consumer)
    (hrest : .createMessage ∉ rest) (lost : MessageCall → Bool) (isOver : Bool)
    (replaces : Option Nat) (hreplaces : ∀ m, replaces = some m → t.supersededMessageId = some m)
    (createdAt : Int) (hcreates : t.assistantMsgId = none → c'.assistantMsgId = true →
      Later s createdAt ∧ ∀ m x, s.messages m = some x → x.isUser = true → m ≤ t.prompt)
    (h' : s' = s.advance k t c' (kept lost (createdCalls t.consumer c' ++ rest)) isOver replaces
      createdAt) : StreamHeld s' ∧ AnswersOrdered s' ∧ ChoosesFinished s s' := by
  obtain ⟨id', hturns, hborn, h⟩ :=
    advance_rows ho.replies hturn hrun c' hrest lost isOver replaces createdAt
  obtain ⟨-, hchosen⟩ := rowsTracked_advance ho.replies ho.rows hturn hreplaces hturns ⟨rfl, rfl⟩ h
  subst h'
  refine ⟨streamHeld_advance ho.stream hturn hrun hturns rfl, ?_,
    choosesFinished_update ho.replies hturn hturns⟩
  exact answersOrdered_advance ho.replies ho.order hturn hturns rfl h hchosen.users
    fun hnone hnew => hcreates hnone (hborn hnone hnew)

theorem orderly_end {c' : Consumer} (hid : c'.assistantMsgId = t.consumer.assistantMsgId)
    (hrest : .createMessage ∉ rest) (lost : MessageCall → Bool)
    (h' : s' = s.advance k t c' (kept lost rest) true none 0) :
    StreamHeld s' ∧ AnswersOrdered s' ∧ ChoosesFinished s s' := by
  refine orderly_advance ho hturn hrun c' hrest lost true none nofun 0 (fun hnone hborn => ?_) ?_
  · rw [hid, (ho.replies.running k t hturn hrun).1, hnone] at hborn
    cases hborn
  · rw [Consumer.createdCalls_same _ hid]
    exact h'

end

theorem applyAbort_outline (j : Nat) (b : SessionAbort) (target : Option Nat) (lost : Bool)
    (m : Nat) : (s.applyAbort j b target lost).outline m = s.outline m := by
  cases target with
  | none => rfl
  | some m' =>
    rw [applyAbort_eq]
    have hmessages : (s.aborting m' lost).outline m = s.outline m := by
      unfold aborting
      split_ifs
      · rfl
      · cases hx : s.messages m' with
        | none => rw [callOn_none hx]
        | some x =>
          rw [callOn_some hx]
          by_cases hm : m = m'
          · simp [outline, hm, hx]
          · simp [outline, hm]
    exact hmessages

theorem prefix_content (s : SessionTurns) (last : Option Nat) (content : String) :
    s.maybePrependInterruptionPrefix last content = content ∨
      s.maybePrependInterruptionPrefix last content = INTERRUPTION_PREFIX ++ content := by
  unfold maybePrependInterruptionPrefix
  split
  · split_ifs
    · exact .inr rfl
    · exact .inl rfl
  · exact .inl rfl

theorem regenerate_orderly (ho : Orderly s) {target prompt : Option Nat}
    (h : s.regenerate target prompt = some s') :
    StreamHeld s' ∧ AnswersOrdered s' ∧ ChoosesFinished s s' := by
  rcases regenerate_cases h with rfl | ⟨hactive, rfl | ⟨m, p, reply, message, content, rfl, rfl,
    hreply, hlast, hfound, hmessage, hcontent, rfl⟩⟩
  · exact ⟨ho.stream, ho.order, choosesFinished_of_turns ho.replies fun t ht => .inl ht⟩
  · have hnone := none_held ho.stream hactive
    refine ⟨⟨fun k _ t _ ht _ hk _ => absurd hk (hnone k t ht), fun k t ht hk =>
      absurd hk (hnone k t ht)⟩, ?_, choosesFinished_of_turns ho.replies fun t ht => .inl ht⟩
    exact answersOrdered_of_outline ho.order (fun _ => rfl) rfl fun k t ht => ⟨k, t, ht, rfl⟩
  · have hnone := none_held ho.stream hactive
    obtain ⟨x, hx, hassistant, -⟩ := isLast_some hlast
    rw [hreply] at hx
    cases hx
    obtain ⟨q, hq, hmeets, -⟩ := isLast_some hfound
    rw [hmessage] at hq
    cases hq
    have huser : message.isUser = true := (Bool.and_eq_true_iff.mp hmeets).1
    refine ⟨streamHeld_only (fun k u _ hu => hnone k u hu) rfl rfl rfl, ?_, fun t m' ht hm' => ?_⟩
    · have hsame : AnswersOrdered { s with registry := s.registry.startStream } :=
        answersOrdered_of_outline ho.order (fun _ => rfl) rfl fun k t ht => ⟨k, t, ht, rfl⟩
      exact answersOrdered_addTurn hsame
        ⟨message.createdAt, outline_some.mpr ⟨message, hmessage, eq_of_beq huser, rfl⟩⟩
    · have hnew := (Function.update_self ..).symm.trans ht
      cases hnew
      cases hm'
      refine ⟨⟨p, message, content, prompt_is_answered ho.replies ho.order hreply hassistant hfound,
        hmessage, huser, hcontent, prefix_content s _ content⟩, fun k u hu hstage hid => ?_⟩
      -- an unfinished turn with a message of its own is running, and would have a stream
      match hrun : u.stage with
      | .preparing =>
        rw [ho.replies.unborn k u hu hrun] at hid
        cases hid
      | .running => exact hnone k u hu (.inl hrun)
      | .over => exact hstage hrun

theorem step_orderly (ws : Workspace) {a : SessionAction} (ho : Orderly s)
    (hguard : OrderlyTurns ws s a) (hstep : s.step ws a = some s') :
    Orderly s' ∧ ChoosesFinished s s' := by
  have hj := (step_keeps ws ho.replies hstep).1
  have hr := (step_keepsRows ws ho.replies ho.rows hstep).1
  suffices h : StreamHeld s' ∧ AnswersOrdered s' ∧ ChoosesFinished s s' from
    ⟨⟨hj, hr, h.1, h.2.1⟩, h.2.2⟩
  cases a with
  | send content createdAt lastAssistant =>
    obtain ⟨sent, rfl⟩ := send_cases hstep
    have hheld : StreamHeld (s.addMessage ⟨.user, createdAt, ⟨.completed, .str content, none⟩⟩) :=
      streamHeld_same ho.stream rfl rfl
    have hordered := answersOrdered_addMessage ho.replies ho.order hguard
      ⟨.completed, .str content, none⟩
    refine ⟨streamHeld_addTurn hheld (by simp [holdsStream, preparing]),
      answersOrdered_addTurn hordered ⟨createdAt, ?_⟩,
      choosesFinished_of_turns ho.replies fun t ht => ?_⟩
    · rw [outline]
      exact congrArg _ (addMessage_self _)
    · have hnew := (Function.update_self ..).symm.trans ht
      cases hnew
      exact .inr rfl
  | regenerate target prompt => exact regenerate_orderly ho hstep
  | prepared k lastCheckpointTime lastFlushTime =>
    obtain ⟨t, ht, rfl⟩ := Option.map_eq_some_iff.mp hstep
    obtain ⟨hturn, hprep⟩ := turnIn_some.mp ht
    refine ⟨streamHeld_prepared ho.stream hturn hprep (hguard t hturn) _ _, ?_,
      choosesFinished_update ho.replies hturn rfl⟩
    refine answersOrdered_of_outline ho.order (fun _ => rfl) rfl fun k' u hu => ?_
    rcases update_some_cases hu with ⟨-, rfl⟩ | ⟨-, hu⟩
    · exact ⟨k, t, hturn, rfl⟩
    · exact ⟨k', u, hu, rfl⟩
  | prepareFails k =>
    obtain ⟨t, ht, rfl⟩ := Option.map_eq_some_iff.mp hstep
    obtain ⟨hturn, hprep⟩ := turnIn_some.mp ht
    refine ⟨streamHeld_prepareFails ho.stream hturn hprep, ?_,
      choosesFinished_update ho.replies hturn rfl⟩
    refine answersOrdered_of_outline ho.order (fun _ => rfl) rfl fun k' u hu => ?_
    rcases update_some_cases hu with ⟨-, rfl⟩ | ⟨-, hu⟩
    · exact ⟨k, t, hturn, rfl⟩
    · exact ⟨k', u, hu, rfl⟩
  | event k a endedAt createdAt lost =>
    obtain ⟨t, ht, rfl⟩ := Option.map_eq_some_iff.mp hstep
    obtain ⟨hturn, hrun⟩ := turnIn_some.mp ht
    obtain ⟨rest, hrest, hcalls⟩ := receive_rest t.consumer ws a endedAt
    -- a new reply comes either from this event, which is guarded, or was there before it
    refine orderly_advance ho hturn hrun (t.consumer.receive ws a endedAt).1 hrest lost
      (t.consumer.receive ws a endedAt).2.2 (replacedBy t a) (fun m hm => ?_) createdAt
      (fun hnone hborn => ?_) (by dsimp only; rw [hcalls])
    · unfold replacedBy at hm
      split_ifs at hm
      exact hm
    · rcases receive_creates hborn with hold | hcreates
      · rw [(ho.replies.running k t hturn hrun).1, hnone] at hold
        cases hold
      · exact hguard hcreates t hturn hnone
  | recvRaises k endedAt lost =>
    obtain ⟨t, ht, rfl⟩ := Option.map_eq_some_iff.mp hstep
    obtain ⟨hturn, hrun⟩ := turnIn_some.mp ht
    exact orderly_end ho hturn hrun (t.consumer.finalizeAbnormalTurn_id .interrupted endedAt)
      (finalize_rest t.consumer endedAt) lost rfl
  | exhausted k | cancelled k =>
    obtain ⟨t, ht, rfl⟩ := Option.map_eq_some_iff.mp hstep
    obtain ⟨hturn, hrun⟩ := turnIn_some.mp ht
    exact orderly_end ho hturn hrun rfl List.not_mem_nil (fun _ => false) rfl
  | callAbort =>
    cases hstep
    exact ⟨streamHeld_same ho.stream rfl rfl,
      answersOrdered_of_outline ho.order (fun _ => rfl) rfl fun k t ht => ⟨k, t, ht, rfl⟩,
      choosesFinished_of_turns ho.replies fun t ht => .inl ht⟩
  | applyAbort j target lost =>
    obtain ⟨b, -, hstep⟩ := Option.bind_eq_some_iff.mp hstep
    split_ifs at hstep
    cases hstep
    -- an abort only edits a row: it touches no turn, no stream and no answer
    have hsame : (s.applyAbort j b target lost).turns = s.turns ∧
        (s.applyAbort j b target lost).registry = s.registry ∧
          (s.applyAbort j b target lost).answered = s.answered := by
      cases target with
      | none => exact ⟨rfl, rfl, rfl⟩
      | some m =>
        have hsame := aborting_sameBut (s := s) m lost
        rw [applyAbort_eq]
        exact ⟨hsame.turns, hsame.registry, hsame.answered⟩
    obtain ⟨hturns, hregistry, hanswered⟩ := hsame
    refine ⟨streamHeld_same ho.stream hturns hregistry, ?_,
      choosesFinished_of_turns ho.replies fun t ht => .inl (hturns ▸ ht)⟩
    exact answersOrdered_of_outline ho.order (applyAbort_outline j b target lost) hanswered
      fun k t ht => ⟨k, t, hturns ▸ ht, rfl⟩

end SessionTurns

/-! What a regeneration takes away and what it sends, over whole runs. -/

namespace SessionTurns

/-- Only the reply a regeneration has chosen is removed, and only when its own reply is stored,
in every run. In an orderly one a regeneration chooses a reply nobody is writing and sends the
message that reply answers. -/
theorem regeneration_replaces (ws : Workspace) {s : SessionTurns} (h : s.Idle)
    (hevents : EventsOwned s) (as : List SessionAction) :
    GuardedRuns.Guarded (step ws) (fun s a => ∀ s', s.step ws a = some s' → ReplacesChosen s s')
        s as ∧
      (AnswersOrdered s → GuardedRuns.Guarded (step ws) (OrderlyTurns ws) s as →
        GuardedRuns.Guarded (step ws) (fun s a => ∀ s', s.step ws a = some s' →
          ChoosesFinished s s') s as) := by
  have hj := repliesTracked_idle h
  have hr : RowsTracked s :=
    ⟨hevents, fun k t m x ht => by simp [h.turns k] at ht, fun k t m ht => by
      simp [h.turns k] at ht⟩
  constructor
  · refine GuardedRuns.guarded_steps (J := fun s => RepliesTracked s ∧ RowsTracked s)
      (p := fun _ _ => True) (fun s a s' hinv _ hstep => ?_) ⟨hj, hr⟩
      (GuardedRuns.guarded_true s as)
    obtain ⟨hr', hchosen⟩ := step_keepsRows ws hinv.1 hinv.2 hstep
    exact ⟨⟨(step_keeps ws hinv.1 hstep).1, hr'⟩, hchosen⟩
  · intro horder hguard
    have hstream : StreamHeld s :=
      ⟨fun k _ t _ ht => by simp [h.turns k] at ht, fun k t ht => by simp [h.turns k] at ht⟩
    exact GuardedRuns.guarded_steps (fun s a s' ho hg hstep => step_orderly ws ho hg hstep)
      ⟨hj, hr, hstream, horder⟩ hguard

theorem answersOrdered_new : AnswersOrdered .new := ⟨nofun, nofun, nofun⟩

/-- A question is answered, and the answer is regenerated. -/
theorem answer_regenerated : GuardedRuns.Guarded (step ⟨fun _ => none, fun _ => false⟩)
    (fun s a => ∀ s', s.step ⟨fun _ => none, fun _ => false⟩ a = some s' → ChoosesFinished s s')
    .new
    [.send "q" 1 none, .prepared 0 0 0,
      .event 0 ⟨⟨.turnCompleted, .obj []⟩, false, 0, 0, 0, 0⟩ 0 2 (fun _ => false),
      .regenerate (some 1) (some 0)] := by
  apply (regeneration_replaces _ idle_new nofun _).2 answersOrdered_new
  intro s₁ h₁
  obtain rfl := Option.some.inj h₁
  refine ⟨nofun, fun s₂ h₂ => ?_⟩
  obtain rfl := Option.some.inj h₂
  refine ⟨fun t _ _ k' u hk' hu => ?_, fun s₃ h₃ => ⟨fun _ t ht _ => ?_, fun s₄ _ => ⟨trivial,
    trivial⟩⟩⟩
  · have hnone := (Function.update_of_ne hk' _ _).symm.trans hu
    cases hnone
  · have hfirst : ∀ m x, Function.update (fun _ : Nat => (none : Option SessionMessage)) 0
        (some ⟨.user, 1, ⟨.completed, .str "q", none⟩⟩) m = some x → m = 0 ∧ x.createdAt = 1 := by
      intro m x hx
      rcases update_some_cases hx with ⟨hm, rfl⟩ | ⟨-, hx⟩
      · exact ⟨hm, rfl⟩
      · cases hx
    refine ⟨fun m x hx => ?_, fun m x hx _ => ?_⟩
    · rw [(hfirst m x hx).2]
      decide
    · rw [(hfirst m x hx).1]
      exact Nat.zero_le _

/-- The second question gets no answer, since its turn cannot connect. The first answer is
regenerated twice, and the second time the second question is sent. -/
theorem other_question_sent : ¬ ∀ (ws : Workspace) (s : SessionTurns), s.Idle → EventsOwned s →
    AnswersOrdered s → ∀ as, GuardedRuns.Guarded (step ws) (fun s a => ∀ s',
      s.step ws a = some s' → ReplacesChosen s s' ∧ ChoosesFinished s s') s as := by
  intro h
  let ws : Workspace := ⟨fun _ => none, fun _ => false⟩
  let answered : Arrival := ⟨⟨.turnCompleted, .obj []⟩, false, 0, 0, 0, 0⟩
  let before : List SessionAction := [.send "q" 1 none, .prepared 0 0 0,
    .event 0 answered 0 2 (fun _ => false), .send "r" 3 (some 1), .prepareFails 1,
    .regenerate (some 1) (some 0), .prepared 2 0 0, .event 2 answered 0 4 (fun _ => false)]
  have hguard := h ws .new idle_new nofun answersOrdered_new
    (before ++ [.regenerate (some 3) (some 2)])
  have hview : ((GuardedRuns.run (step ws) .new before).bind fun s =>
      (s.step ws (.regenerate (some 3) (some 2))).bind fun s' =>
        (s'.turns s.turnCount).map fun t => (t.supersededMessageId, t.content, s.answered 3,
          s.promptText (some 0))) = some (some 3, "r", some 0, some (0, "q")) := by decide +kernel
  obtain ⟨s, hrun, hview⟩ := Option.bind_eq_some_iff.mp hview
  obtain ⟨s', hstep, hview⟩ := Option.bind_eq_some_iff.mp hview
  obtain ⟨t, ht, hview⟩ := Option.map_eq_some_iff.mp hview
  simp only [Prod.mk.injEq] at hview
  obtain ⟨hsuperseded, hsent, hanswered, hprompt⟩ := hview
  obtain ⟨-, x, hx, hcontent⟩ := promptText_some hprompt
  obtain ⟨⟨p, y, content, hp, hy, -, hcontent', heither⟩, -⟩ :=
    ((GuardedRuns.guarded_of_append hrun hguard) s' hstep).1 s' hstep |>.2 t 3 ht hsuperseded
  rw [hanswered] at hp
  cases hp
  rw [hx] at hy
  cases hy
  rw [hcontent] at hcontent'
  cases hcontent'
  rw [hsent] at heither
  revert heither
  decide +kernel

end SessionTurns

end WittyService

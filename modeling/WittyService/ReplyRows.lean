import WittyService.ReplyActions

/-! Which stored rows a reply has, and which of them a step takes away. -/
namespace WittyService

/-! The repository calls write no event under another message. -/

variable {messages : List Nat} {rows rows' : List EventRow} {m : Nat}

theorem bulkAttempts_ok {retries : Nat}
    {pending : List PendingEvent} (h : bulkAttempts messages rows m retries pending = .ok rows') :
    ∀ r ∈ rows', r ∈ rows ∨ r.1.messageId = m := by
  induction retries generalizing pending with
  | zero => cases h
  | succ retries ih =>
    rw [bulkAttempts] at h
    split_ifs at h
    · exact ih h
    · cases h
      intro r hr
      rcases List.mem_append.mp hr with hold | hnew
      · exact .inl hold
      · obtain ⟨e, -, rfl⟩ := List.mem_map.mp hnew
        exact .inr rfl

theorem createMessageEventsBulk_ok
    {events : List PendingEvent} (h : createMessageEventsBulk messages rows m events = .ok rows') :
    ∀ r ∈ rows', r ∈ rows ∨ r.1.messageId = m := by
  unfold createMessageEventsBulk at h
  split_ifs at h
  · cases h
    exact fun r hr => .inl hr
  · exact bulkAttempts_ok h

theorem mem_compactMessageDeltaEvents {r : EventRow}
    (h : r ∈ compactMessageDeltaEvents rows m) : ∃ r' ∈ rows, r'.1 = r.1 := by
  rcases List.mem_append.mp h with h | h
  · exact ⟨r, (List.mem_filter.mp h).1, rfl⟩
  · have hkey : r.1 ∈ (orderedRows rows m).map Prod.fst :=
      (compactRows_sublist _).subset (List.mem_map_of_mem h)
    obtain ⟨r', hr', hkey'⟩ := List.mem_map.mp hkey
    have hmem := KeyOrder.mem_sortBy.mp hr'
    exact ⟨r', (List.mem_filter.mp hmem).1, hkey'⟩

namespace SessionTurns

variable {s s' : SessionTurns}

def EventsOwned (s : SessionTurns) : Prop := ∀ r ∈ s.events, (s.messages r.1.messageId).isSome

section

variable (h : EventsOwned s)
include h

variable (m : Nat)

theorem eventsOwned_callOn (call : MessageCall) :
    EventsOwned (s.callOn m call) := by
  cases hx : s.messages m with
  | none => rwa [callOn_none hx]
  | some x =>
    rw [callOn_some hx]
    intro r hr
    have hsome : ∀ m', m' = m ∨ (s.messages m').isSome → (Function.update s.messages m
        (some { x with row := rowAfter x.row call }) m').isSome := by
      intro m' hm'
      by_cases heq : m' = m
      · rw [heq, Function.update_self]
        rfl
      · rw [Function.update_of_ne heq]
        exact hm'.resolve_left heq
    apply hsome
    have hr' : r ∈ s.eventsAfter m call := hr
    unfold eventsAfter at hr'
    split at hr'
    · split at hr'
      · next hok =>
        rcases createMessageEventsBulk_ok hok r hr' with hold | hnew
        · exact .inr (h r hold)
        · exact .inl hnew
      · exact .inr (h r hr')
    · obtain ⟨r₀, hr₀, hkey⟩ := mem_compactMessageDeltaEvents hr'
      rw [← hkey]
      exact .inr (h r₀ hr₀)
    · exact .inr (h r hr')

theorem eventsOwned_callsOn (calls : List MessageCall) :
    EventsOwned (s.callsOn m calls) := by
  induction calls generalizing s with
  | nil => exact h
  | cons call calls ih => exact ih (eventsOwned_callOn h m call)

theorem eventsOwned_addMessage (message : SessionMessage) :
    EventsOwned (s.addMessage message) := by
  intro r hr
  by_cases hm : r.1.messageId = s.messageCount
  · rw [hm, addMessage_self]
    rfl
  · rw [addMessage_other message hm]
    exact h r hr

theorem eventsOwned_deleteMessage :
    EventsOwned (s.deleteMessage m) := by
  intro r hr
  obtain ⟨hmem, hne⟩ := List.mem_filter.mp hr
  have hm : r.1.messageId ≠ m := of_decide_eq_true hne
  exact (congrArg Option.isSome (Function.update_of_ne hm _ _)).trans (h r hmem)

theorem eventsOwned_createReply (prompt : Nat) (replaces : Option Nat)
    (createdAt : Int) : EventsOwned (s.createReply prompt replaces createdAt) := by
  cases replaces with
  | none => exact eventsOwned_addMessage h _
  | some old => exact eventsOwned_addMessage (eventsOwned_deleteMessage h old) _

end

/-- What a step removes, and what it leaves as it is: no user message changes, and a message is
gone only if a regeneration had chosen it and stores its own reply in the same step. -/
structure ReplacesChosen (s s' : SessionTurns) : Prop where
  users : ∀ m x, s.messages m = some x → x.isUser = true → s'.messages m = some x
  removed : ∀ m x, s.messages m = some x → s'.messages m = none →
    x.isAssistant = true ∧ (∀ r ∈ s'.events, r.1.messageId ≠ m) ∧
      ∃ k t t' m' reply, s.turns k = some t ∧ t.supersededMessageId = some m ∧
        t.assistantMsgId = none ∧ s'.turns k = some t' ∧ t'.assistantMsgId = some m' ∧
          s.messages m' = none ∧ s'.messages m' = some reply ∧ reply.isAssistant = true
  chosen : ∀ k t, s.turns k = some t → ∃ t', s'.turns k = some t' ∧
    t'.supersededMessageId = t.supersededMessageId ∧ t'.content = t.content

/-- A regeneration that begins sends the user message that the reply it has chosen answers, and
no unfinished turn is writing that reply. -/
def ChoosesFinished (s s' : SessionTurns) : Prop :=
  ∀ t m, s'.turns s.turnCount = some t → t.supersededMessageId = some m →
    (∃ p x content, s.answered m = some p ∧ s.messages p = some x ∧ x.isUser = true ∧
      x.row.content = .str content ∧
        (t.content = content ∨ t.content = INTERRUPTION_PREFIX ++ content)) ∧
      ∀ k u, s.turns k = some u → u.stage ≠ .over → u.assistantMsgId ≠ some m

structure RowsTracked (s : SessionTurns) : Prop where
  events : EventsOwned s
  replies : ∀ k t m x, s.turns k = some t →
    (t.assistantMsgId = some m ∨ t.supersededMessageId = some m) → s.messages m = some x →
      x.isAssistant = true
  targets : ∀ k t m, s.turns k = some t → t.supersededMessageId = some m → m < s.messageCount

variable {x : SessionMessage} {calls : List MessageCall} {replaces : Option Nat} {t : SessionTurn}

theorem not_user_of_assistant (h : x.isAssistant = true) :
    x.isUser = false := by
  unfold SessionMessage.isUser
  rw [eq_of_beq h]
  rfl

/-- What the calls of a turn make of the rows; `id` and `id'` are its message before and
after. -/
structure RowsAdvance (s s' : SessionTurns) (prompt : Nat) (id id' replaces : Option Nat)
    (createdAt : Int) : Prop where
  events : EventsOwned s → EventsOwned s'
  messageCount : s.messageCount ≤ s'.messageCount
  answered : ∀ m, m < s.messageCount → s'.answered m = s.answered m
  rows : ∀ m x, s.messages m = some x →
    (∃ row, s'.messages m = some { x with row := row } ∧ (id ≠ some m → row = x.row)) ∨
      s'.messages m = none ∧ replaces = some m ∧ id = none ∧ id' = some s.messageCount
  keeps : ∀ m, id = some m → id' = some m
  born : id = none → ∀ m, id' = some m → m = s.messageCount ∧ m < s'.messageCount ∧
    s'.answered m = some prompt ∧
      ∃ x, s'.messages m = some x ∧ x.isAssistant = true ∧ x.createdAt = createdAt
  new : ∀ m x, s.messages m = none → s'.messages m = some x → id = none ∧ id' = some m

theorem callsOn_rows {m m' : Nat} (hx : s.messages m' = some x) (hcalls : .createMessage ∉ calls) :
    ∃ row, (s.callsOn m calls).messages m' = some { x with row := row } ∧
      (m' ≠ m → row = x.row) := by
  by_cases hm : m' = m
  · subst hm
    obtain ⟨row, hrow, -⟩ := callsOn_status hx hcalls
    exact ⟨row, hrow, fun hne => absurd rfl hne⟩
  · exact ⟨x.row, ((callsOn_sameBut m calls).messages m' hm).trans hx, fun _ => rfl⟩

theorem rowsAdvance_own {m : Nat} (hcalls : .createMessage ∉ calls)
    (prompt : Nat) (replaces : Option Nat) (createdAt : Int) :
    RowsAdvance s (s.callsOn m calls) prompt (some m) (some m) replaces createdAt := by
  have hsame := callsOn_sameBut (s := s) m calls
  refine ⟨fun h => eventsOwned_callsOn h m calls, hsame.messageCount.ge, fun m' _ => ?_,
    fun m' x hx => .inl ?_, fun _ h => h, nofun, fun m' x hnone hx => ?_⟩
  · rw [hsame.answered]
  · obtain ⟨row, hrow, hne⟩ := callsOn_rows hx hcalls (m := m)
    exact ⟨row, hrow, fun h => hne fun heq => h (congrArg some heq.symm)⟩
  · by_cases hm : m' = m
    · subst hm
      rw [callsOn_none hnone, hnone] at hx
      cases hx
    · rw [hsame.messages m' hm, hnone] at hx
      cases hx

theorem rowsAdvance_created (hfresh : ∀ m, s.messageCount ≤ m → s.messages m = none)
    (hcalls : .createMessage ∉ calls) (prompt : Nat) (createdAt : Int) :
    RowsAdvance s ((s.createReply prompt replaces createdAt).callsOn s.messageCount calls) prompt
      none (some s.messageCount) replaces createdAt := by
  have hsame := callsOn_sameBut (s := s.createReply prompt replaces createdAt) s.messageCount calls
  have hcount := (createReply_same s prompt replaces createdAt).1
  have hanswered : (s.createReply prompt replaces createdAt).answered =
      Function.update s.answered s.messageCount (some prompt) := by
    cases replaces <;> rfl
  refine ⟨fun h => eventsOwned_callsOn (eventsOwned_createReply h prompt replaces createdAt) _ _,
    ?_, fun m hm => ?_, fun m x hx => ?_, nofun, fun _ m hm => ?_, fun m x hnone hx => ?_⟩
  · rw [hsame.messageCount, hcount]
    omega
  · rw [hsame.answered, hanswered]
    exact Function.update_of_ne (by omega) _ _
  · have hm : m ≠ s.messageCount := by
      rintro rfl
      rw [hfresh _ (Nat.le_refl _)] at hx
      cases hx
    rw [hsame.messages m hm, createReply_other s prompt replaces createdAt hm]
    split_ifs with hreplaced
    · exact .inr ⟨rfl, hreplaced, rfl, rfl⟩
    · exact .inl ⟨x.row, hx, fun _ => rfl⟩
  · cases hm
    obtain ⟨row, hrow, -⟩ := callsOn_rows (createReply_message s prompt replaces createdAt) hcalls
      (m := s.messageCount)
    refine ⟨rfl, ?_, ?_, _, hrow, rfl, rfl⟩
    · rw [hsame.messageCount, hcount]
      omega
    · rw [hsame.answered, hanswered]
      exact Function.update_self ..
  · by_cases hm : m = s.messageCount
    · exact ⟨rfl, congrArg some hm.symm⟩
    · rw [hsame.messages m hm, createReply_other s prompt replaces createdAt hm, hnone,
        ite_self] at hx
      cases hx

def moved (t : SessionTurn) (c' : Consumer) (id' : Option Nat) (isOver : Bool) : SessionTurn :=
  { t with
    consumer := c'
    assistantMsgId := id'
    stage := if isOver then .over else .running }

theorem advance_rows (hj : RepliesTracked s) {k : Nat}
    (hturn : s.turns k = some t) (hrun : t.stage = .running) (c' : Consumer)
    {rest : List MessageCall} (hrest : .createMessage ∉ rest) (lost : MessageCall → Bool)
    (isOver : Bool) (replaces : Option Nat) (createdAt : Int) :
    ∃ id', (s.advance k t c' (kept lost (createdCalls t.consumer c' ++ rest)) isOver replaces
        createdAt).turns = Function.update s.turns k (some (moved t c' id' isOver)) ∧
      (t.assistantMsgId = none → id' ≠ none → c'.assistantMsgId = true) ∧
      RowsAdvance s (s.advance k t c' (kept lost (createdCalls t.consumer c' ++ rest)) isOver
        replaces createdAt) t.prompt t.assistantMsgId id' replaces createdAt := by
  have hid := (hj.running k t hturn hrun).1
  have hkept : MessageCall.createMessage ∉ kept lost rest := fun hmem => hrest (mem_kept hmem)
  have hmessages : ∃ id' x, (kept lost (createdCalls t.consumer c' ++ rest)).foldl
      (performCall t replaces createdAt) (s, t.assistantMsgId) = (x, id') ∧
      x.turns = s.turns ∧ (t.assistantMsgId = none → id' ≠ none → c'.assistantMsgId = true) ∧
        RowsAdvance s x t.prompt t.assistantMsgId id' replaces createdAt := by
    rcases performed_cases s t replaces createdAt c' lost hrest hid with
      ⟨hnone, -, hx⟩ | ⟨m, hsome, hx⟩ | ⟨hnone, hborn, hx⟩
    · refine ⟨none, s, hx, rfl, fun _ h => absurd rfl h, ?_⟩
      rw [hnone]
      exact ⟨fun h => h, Nat.le_refl _, fun _ _ => rfl, fun m x h => .inl ⟨x.row, h, fun _ => rfl⟩,
        nofun, nofun, fun m x h h' => by
          rw [h] at h'
          cases h'⟩
    · refine ⟨some m, _, hx, (callsOn_sameBut m _).turns, fun h => ?_, ?_⟩
      · rw [hsome] at h
        cases h
      · rw [hsome]
        exact rowsAdvance_own hkept t.prompt replaces createdAt
    · refine ⟨some s.messageCount, _, hx, ?_, fun _ _ => hborn, ?_⟩
      · rw [(callsOn_sameBut s.messageCount _).turns]
        exact (createReply_same s t.prompt replaces createdAt).2.1
      · rw [hnone]
        exact rowsAdvance_created (fun m hm => (hj.fresh m hm).1) hkept t.prompt createdAt
  obtain ⟨id', x, hx, hturns, hborn, h⟩ := hmessages
  refine ⟨id', ?_, hborn, ?_⟩
  · unfold advance
    rw [hx]
    exact congrArg (Function.update · k _) hturns
  · unfold advance
    rw [hx]
    exact ⟨h.events, h.messageCount, h.answered, h.rows, h.keeps, h.born, h.new⟩

theorem rowsTracked_advance (hj : RepliesTracked s) (hr : RowsTracked s) {k : Nat}
    {t' : SessionTurn} (hturn : s.turns k = some t) {createdAt : Int}
    (hreplaces : ∀ m, replaces = some m → t.supersededMessageId = some m)
    (hturns : s'.turns = Function.update s.turns k (some t'))
    (hsame : t'.supersededMessageId = t.supersededMessageId ∧ t'.content = t.content)
    (h : RowsAdvance s s' t.prompt t.assistantMsgId t'.assistantMsgId replaces createdAt) :
    RowsTracked s' ∧ ReplacesChosen s s' := by
  have hevents := h.events hr.events
  have hself : s'.turns k = some t' := by rw [hturns, Function.update_self]
  -- a row that was there before and that the turn refers to now, it referred to before
  have hown : ∀ m x, s.messages m = some x →
      (t'.assistantMsgId = some m ∨ t'.supersededMessageId = some m) → x.isAssistant = true := by
    intro m x hx hm
    rcases hm with hm | hm
    · cases hid : t.assistantMsgId with
      | none =>
        obtain ⟨hnew, -⟩ := h.born hid m hm
        rw [(hj.fresh m (by omega)).1] at hx
        cases hx
      | some m₀ =>
        have heq := (h.keeps m₀ hid).symm.trans hm
        cases heq
        exact hr.replies k t _ x hturn (.inl hid) hx
    · exact hr.replies k t m x hturn (.inr (hsame.1 ▸ hm)) hx
  constructor
  · refine ⟨hevents, fun k' u m x hu hm hx => ?_, fun k' u m hu hm => ?_⟩
    · cases hx₀ : s.messages m with
      | none =>
        obtain ⟨hid, hid'⟩ := h.new m x hx₀ hx
        obtain ⟨-, -, -, x₁, hx₁, hassistant, -⟩ := h.born hid m hid'
        rw [hx] at hx₁
        cases hx₁
        exact hassistant
      | some x₀ =>
        have hbefore : x₀.isAssistant = true := by
          rw [hturns] at hu
          rcases update_some_cases hu with ⟨-, rfl⟩ | ⟨-, hu⟩
          · exact hown m x₀ hx₀ hm
          · exact hr.replies k' u m x₀ hu hm hx₀
        rcases h.rows m x₀ hx₀ with ⟨row, hrow, -⟩ | ⟨hnone, -⟩
        · rw [hx] at hrow
          cases hrow
          exact hbefore
        · rw [hx] at hnone
          cases hnone
    · have hcount := h.messageCount
      rw [hturns] at hu
      rcases update_some_cases hu with ⟨-, rfl⟩ | ⟨-, hu⟩
      · have hlt := hr.targets k t m hturn (hsame.1 ▸ hm)
        omega
      · have hlt := hr.targets k' u m hu hm
        omega
  · refine ⟨fun m x hx huser => ?_, fun m x hx hnone => ?_, fun k' u hu => ?_⟩
    · have hno : ∀ hassistant : x.isAssistant = true, False := by
        intro hassistant
        rw [not_user_of_assistant hassistant] at huser
        cases huser
      rcases h.rows m x hx with ⟨row, hrow, hkept⟩ | ⟨-, hreplaced, -⟩
      · rw [hrow, hkept fun hid => hno (hr.replies k t m x hturn (.inl hid) hx)]
      · exact absurd (hr.replies k t m x hturn (.inr (hreplaces m hreplaced)) hx) hno
    · rcases h.rows m x hx with ⟨row, hrow, -⟩ | ⟨-, hreplaced, hid, hid'⟩
      · rw [hnone] at hrow
        cases hrow
      · have hsuperseded := hreplaces m hreplaced
        obtain ⟨-, -, -, reply, hreply, hassistant, -⟩ := h.born hid _ hid'
        refine ⟨hr.replies k t m x hturn (.inr hsuperseded) hx, fun r hr heq => ?_, k, t, t', _,
          reply, hturn, hsuperseded, hid, hself, hid', (hj.fresh _ (Nat.le_refl _)).1, hreply,
          hassistant⟩
        have hstored := hevents r hr
        rw [heq, hnone] at hstored
        cases hstored
    · by_cases hk : k' = k
      · subst hk
        rw [hturn] at hu
        cases hu
        exact ⟨t', hself, hsame⟩
      · exact ⟨u, by rw [hturns, Function.update_of_ne hk, hu], rfl, rfl⟩

theorem rowsTracked_quiet (hj : RepliesTracked s) (hr : RowsTracked s)
    (hmessages : ∀ m x, s.messages m = some x → s'.messages m = some x)
    (hnew : ∀ m x, s'.messages m = some x → s.messages m = some x ∨ s.messageCount ≤ m)
    (hcount : s.messageCount ≤ s'.messageCount) (hevents : s'.events = s.events)
    (hturns : ∀ k t, s'.turns k = some t →
      (∃ t₀, s.turns k = some t₀ ∧ t.assistantMsgId = t₀.assistantMsgId ∧
        t.supersededMessageId = t₀.supersededMessageId) ∨
      t.assistantMsgId = none ∧ ∀ m, t.supersededMessageId = some m →
        ∃ x, s.messages m = some x ∧ x.isAssistant = true)
    (hkept : ∀ k t, s.turns k = some t → ∃ t', s'.turns k = some t' ∧
      t'.supersededMessageId = t.supersededMessageId ∧ t'.content = t.content) :
    RowsTracked s' ∧ ReplacesChosen s s' := by
  have hlt : ∀ m x, s.messages m = some x → m < s.messageCount := by
    intro m x hx
    by_contra hle
    rw [(hj.fresh m (by omega)).1] at hx
    cases hx
  constructor
  · refine ⟨fun r hr' => ?_, fun k t m x hturn hm hx => ?_, fun k t m hturn hm => ?_⟩
    · rw [hevents] at hr'
      obtain ⟨x, hx⟩ := Option.isSome_iff_exists.mp (hr.events r hr')
      rw [hmessages _ x hx]
      rfl
    · rcases hturns k t hturn with ⟨t₀, ht₀, hid, hsup⟩ | ⟨hid, hsup⟩
      · rw [hid, hsup] at hm
        have hm' : m < s.messageCount := by
          rcases hm with hm | hm
          · exact hj.owned k t₀ m ht₀ hm
          · exact hr.targets k t₀ m ht₀ hm
        rcases hnew m x hx with hold | hle
        · exact hr.replies k t₀ m x ht₀ hm hold
        · omega
      · rcases hm with hm | hm
        · rw [hid] at hm
          cases hm
        · obtain ⟨x₀, hx₀, hassistant⟩ := hsup m hm
          rw [hmessages m x₀ hx₀] at hx
          cases hx
          exact hassistant
    · rcases hturns k t hturn with ⟨t₀, ht₀, -, hsup⟩ | ⟨-, hsup⟩
      · have hlt := hr.targets k t₀ m ht₀ (hsup ▸ hm)
        omega
      · obtain ⟨x₀, hx₀, -⟩ := hsup m hm
        have hlt := hlt m x₀ hx₀
        omega
  · refine ⟨fun m x hx _ => hmessages m x hx, fun m x hx hnone => ?_, hkept⟩
    rw [hmessages m x hx] at hnone
    cases hnone

theorem kept_same (hturns : s'.turns = s.turns) : ∀ k t, s.turns k = some t →
    ∃ t', s'.turns k = some t' ∧ t'.supersededMessageId = t.supersededMessageId ∧
      t'.content = t.content :=
  fun _ t hturn => ⟨t, hturns ▸ hturn, rfl, rfl⟩

section

variable (hj : RepliesTracked s) (hr : RowsTracked s)
include hj hr

variable {t : SessionTurn}

theorem rowsTracked_addTurn
    (hid : t.assistantMsgId = none) (hsup : ∀ m, t.supersededMessageId = some m →
      ∃ x, s.messages m = some x ∧ x.isAssistant = true) :
    RowsTracked (s.addTurn t) ∧ ReplacesChosen s (s.addTurn t) := by
  refine rowsTracked_quiet hj hr (fun m x hx => hx) (fun m x hx => .inl hx) (Nat.le_refl _) rfl
    (fun k u hu => ?_) fun k u hu => ⟨u, turns_addTurn hj t hu, rfl, rfl⟩
  rcases update_some_cases hu with ⟨-, rfl⟩ | ⟨-, hu⟩
  · exact .inr ⟨hid, hsup⟩
  · exact .inl ⟨u, hu, rfl, rfl⟩

theorem rowsTracked_addMessage (message : SessionMessage) :
    RowsTracked (s.addMessage message) ∧ ReplacesChosen s (s.addMessage message) := by
  refine rowsTracked_quiet hj hr (fun m x hx => ?_) (fun m x hx => ?_) (Nat.le_succ _) rfl
    (fun k u hu => .inl ⟨u, hu, rfl, rfl⟩) (kept_same rfl)
  · have hm : m ≠ s.messageCount := by
      rintro rfl
      rw [(hj.fresh _ (Nat.le_refl _)).1] at hx
      cases hx
    rw [addMessage_other message hm, hx]
  · by_cases hm : m = s.messageCount
    · exact .inr hm.ge
    · rw [addMessage_other message hm] at hx
      exact .inl hx

theorem rowsTracked_setTurn {k : Nat} (t' : SessionTurn) (hturn : s.turns k = some t)
    (hid : t'.assistantMsgId = t.assistantMsgId)
    (hsame : t'.supersededMessageId = t.supersededMessageId ∧ t'.content = t.content)
    (registry : SessionStreamRegistry WsEvent) :
    RowsTracked { s.setTurn k t' with registry := registry } ∧
      ReplacesChosen s { s.setTurn k t' with registry := registry } := by
  refine rowsTracked_quiet hj hr (fun m x hx => hx) (fun m x hx => .inl hx) (Nat.le_refl _) rfl
    (fun k' u hu => ?_) fun k' u hu => ?_
  · rcases update_some_cases hu with ⟨rfl, rfl⟩ | ⟨-, hu⟩
    · exact .inl ⟨t, hturn, hid, hsame.1⟩
    · exact .inl ⟨u, hu, rfl, rfl⟩
  · by_cases hk : k' = k
    · subst hk
      rw [hturn] at hu
      cases hu
      exact ⟨t', Function.update_self .., hsame⟩
    · exact ⟨u, (Function.update_of_ne hk _ _).trans hu, rfl, rfl⟩

theorem rowsTracked_applyAbort {j : Nat} {b : SessionAbort} {target : Option Nat} {lost : Bool}
    (hlast : s.isLast SessionMessage.isAssistant target = true) :
    RowsTracked (s.applyAbort j b target lost) ∧
      ReplacesChosen s (s.applyAbort j b target lost) := by
  cases target with
  | none =>
    exact rowsTracked_quiet hj hr (fun m x hx => hx) (fun m x hx => .inl hx) (Nat.le_refl _) rfl
      (fun k u hu => .inl ⟨u, hu, rfl, rfl⟩) (kept_same rfl)
  | some m =>
    obtain ⟨x, hx, hassistant, -⟩ := isLast_some hlast
    have hsame := aborting_sameBut (s := s) m lost
    have hevents : EventsOwned (s.aborting m lost) := by
      unfold aborting
      split_ifs
      · exact hr.events
      · exact eventsOwned_callOn hr.events m _
    have hrow : ∃ row, (s.aborting m lost).messages m = some { x with row := row } := by
      unfold aborting
      split_ifs
      · exact ⟨x.row, hx⟩
      · have hcall : MessageCall.updateMessageStatus .interrupted ≠ .createMessage := nofun
        obtain ⟨row, hrow, -⟩ := callOn_status hx hcall
        exact ⟨row, hrow⟩
    obtain ⟨row, hrow⟩ := hrow
    have hrows : ∀ m' x', (s.aborting m lost).messages m' = some x' →
        ∃ x₀, s.messages m' = some x₀ ∧ x'.role = x₀.role := by
      intro m' x' hx'
      by_cases hm : m' = m
      · subst hm
        rw [hrow] at hx'
        cases hx'
        exact ⟨x, hx, rfl⟩
      · rw [hsame.messages m' hm] at hx'
        exact ⟨x', hx', rfl⟩
    rw [applyAbort_eq]
    constructor
    · refine ⟨hevents, fun k t m' x' hturn hm' hx' => ?_, fun k t m' hturn hm' => ?_⟩
      · obtain ⟨x₀, hx₀, hrole⟩ := hrows m' x' hx'
        have hold := hr.replies k t m' x₀ (congrFun hsame.turns k ▸ hturn) hm' hx₀
        unfold SessionMessage.isAssistant at hold ⊢
        rw [hrole]
        exact hold
      · have hlt := hr.targets k t m' (congrFun hsame.turns k ▸ hturn) hm'
        exact hsame.messageCount ▸ hlt
    · refine ⟨fun m' x' hx' huser => ?_, fun m' x' hx' hnone => ?_, kept_same hsame.turns⟩
      · have hm : m' ≠ m := by
          rintro rfl
          rw [hx] at hx'
          cases hx'
          rw [not_user_of_assistant hassistant] at huser
          cases huser
        exact (hsame.messages m' hm).trans hx'
      · exfalso
        have hnone' : (s.aborting m lost).messages m' = none := hnone
        by_cases hm : m' = m
        · subst hm
          rw [hrow] at hnone'
          cases hnone'
        · rw [hsame.messages m' hm, hx'] at hnone'
          cases hnone'

end

variable (c : Consumer)

theorem receive_rest (ws : Workspace) (a : Arrival) (endedAt : Int) :
    ∃ rest, .createMessage ∉ rest ∧ (c.receive ws a endedAt).2.1 =
      createdCalls c (c.receive ws a endedAt).1 ++ rest := by
  cases herror : a.takesError with
  | true =>
    obtain ⟨-, -, plain, hplain, hcalls⟩ := c.receive_error ws endedAt herror
    refine ⟨_, fun hmem => ?_, hcalls⟩
    rcases List.mem_append.mp hmem with hmem | hmem
    · exact plain_notMem hplain hmem
    · simp at hmem
  | false =>
    obtain ⟨-, plain, ending, hplain, hcalls, hending⟩ := c.receive_other ws endedAt herror
    refine ⟨_, fun hmem => ?_, hcalls⟩
    rcases List.mem_append.mp hmem with hmem | hmem
    · exact plain_notMem hplain hmem
    · exact ending_notMem hending hmem

theorem finalize_rest (endedAt : Int) :
    .createMessage ∉ (c.finalizeAbnormalTurn .interrupted endedAt).2 := by
  rw [Consumer.finalizeAbnormalTurn_calls]
  intro hmem
  rcases List.mem_append.mp hmem with hmem | hmem
  · exact plain_notMem (c.flushEvents_plain endedAt) hmem
  · split_ifs at hmem <;> simp at hmem

section

variable (hj : RepliesTracked s) (hr : RowsTracked s) {k : Nat} {t : SessionTurn}
  (hturn : s.turns k = some t) (hrun : t.stage = .running)
include hj hr hturn hrun

theorem advance_keepsRows (c' : Consumer)
    {rest : List MessageCall} (hrest : .createMessage ∉ rest) (lost : MessageCall → Bool)
    (isOver : Bool) (replaces : Option Nat)
    (hreplaces : ∀ m, replaces = some m → t.supersededMessageId = some m) (createdAt : Int) :
    RowsTracked (s.advance k t c' (kept lost (createdCalls t.consumer c' ++ rest)) isOver replaces
        createdAt) ∧
      ReplacesChosen s (s.advance k t c' (kept lost (createdCalls t.consumer c' ++ rest)) isOver
        replaces createdAt) := by
  obtain ⟨id', hturns, -, h⟩ := advance_rows hj hturn hrun c' hrest lost isOver replaces createdAt
  exact rowsTracked_advance hj hr hturn hreplaces hturns ⟨rfl, rfl⟩ h

theorem exhausted_keepsRows :
    RowsTracked (s.advance k t t.consumer [] true none 0) ∧
      ReplacesChosen s (s.advance k t t.consumer [] true none 0) := by
  have hnil : MessageCall.createMessage ∉ [] := List.not_mem_nil
  have h := advance_keepsRows hj hr hturn hrun t.consumer hnil (fun _ => false) true none nofun 0
  rwa [Consumer.createdCalls_same _ rfl] at h

end

theorem send_keepsRows (hj : RepliesTracked s) (hr : RowsTracked s) (message : SessionMessage)
    (hid : t.assistantMsgId = none) (hsup : t.supersededMessageId = none) :
    RowsTracked ((s.addMessage message).addTurn t) ∧
      ReplacesChosen s ((s.addMessage message).addTurn t) := by
  have hstored := repliesTracked_addMessage hj message
  obtain ⟨hr₁, h₁⟩ := rowsTracked_addMessage hj hr message
  obtain ⟨hr₂, h₂⟩ := rowsTracked_addTurn hstored hr₁ hid fun m hm => by
    rw [hsup] at hm
    cases hm
  refine ⟨hr₂, h₁.users, fun m x hx hnone => ?_, h₂.chosen⟩
  have hm : m ≠ s.messageCount := by
    rintro rfl
    rw [(hj.fresh _ (Nat.le_refl _)).1] at hx
    cases hx
  have hgone : (s.addMessage message).messages m = none := hnone
  rw [addMessage_other message hm, hx] at hgone
  cases hgone

theorem step_keepsRows (ws : Workspace) {a : SessionAction} (hj : RepliesTracked s)
    (hr : RowsTracked s) (hstep : s.step ws a = some s') :
    RowsTracked s' ∧ ReplacesChosen s s' := by
  cases a with
  | send content createdAt lastAssistant =>
    obtain ⟨sent, rfl⟩ := send_cases hstep
    exact send_keepsRows hj hr _ rfl rfl
  | regenerate target prompt =>
    rcases regenerate_cases hstep with rfl | ⟨-, rfl | ⟨m, p, reply, message, content, -, -, hreply,
      hlast, -, -, -, rfl⟩⟩
    · exact rowsTracked_quiet hj hr (fun m x hx => hx) (fun m x hx => .inl hx) (Nat.le_refl _) rfl
        (fun k u hu => .inl ⟨u, hu, rfl, rfl⟩) (kept_same rfl)
    · exact rowsTracked_quiet hj hr (fun m x hx => hx) (fun m x hx => .inl hx) (Nat.le_refl _) rfl
        (fun k u hu => .inl ⟨u, hu, rfl, rfl⟩) (kept_same rfl)
    · have hreserved := repliesTracked_registry hj s.registry.startStream
      have hr' : RowsTracked { s with registry := s.registry.startStream } :=
        ⟨hr.events, hr.replies, hr.targets⟩
      obtain ⟨x, hx, hassistant, -⟩ := isLast_some hlast
      obtain ⟨hr₁, h₁⟩ := rowsTracked_addTurn hreserved hr'
        (t := preparing (s.maybePrependInterruptionPrefix (some m) content) p (some m)
          (some s.registry.nextGeneration)) rfl fun m' hm' => by
            cases hm'
            exact ⟨x, hx, hassistant⟩
      exact ⟨hr₁, h₁.users, h₁.removed, h₁.chosen⟩
  | prepared k lastCheckpointTime lastFlushTime =>
    obtain ⟨t, ht, rfl⟩ := Option.map_eq_some_iff.mp hstep
    obtain ⟨hturn, -⟩ := turnIn_some.mp ht
    exact rowsTracked_setTurn hj hr { t with
      stage := .running
      streamGen := some (t.streamGen.getD s.registry.nextGeneration)
      consumer := .new lastCheckpointTime lastFlushTime } hturn rfl ⟨rfl, rfl⟩ _
  | prepareFails k =>
    obtain ⟨t, ht, rfl⟩ := Option.map_eq_some_iff.mp hstep
    obtain ⟨hturn, -⟩ := turnIn_some.mp ht
    exact rowsTracked_setTurn hj hr { t with stage := .over } hturn rfl ⟨rfl, rfl⟩ _
  | event k a endedAt createdAt lost =>
    obtain ⟨t, ht, rfl⟩ := Option.map_eq_some_iff.mp hstep
    obtain ⟨hturn, hrun⟩ := turnIn_some.mp ht
    obtain ⟨rest, hrest, hcalls⟩ := receive_rest t.consumer ws a endedAt
    dsimp only
    rw [hcalls]
    refine advance_keepsRows hj hr hturn hrun _ hrest lost _ _ (fun m hm => ?_) createdAt
    unfold replacedBy at hm
    split_ifs at hm
    exact hm
  | recvRaises k endedAt lost =>
    obtain ⟨t, ht, rfl⟩ := Option.map_eq_some_iff.mp hstep
    obtain ⟨hturn, hrun⟩ := turnIn_some.mp ht
    have h := advance_keepsRows hj hr hturn hrun
      (t.consumer.finalizeAbnormalTurn .interrupted endedAt).1 (finalize_rest t.consumer endedAt)
      lost true none nofun 0
    rwa [Consumer.createdCalls_same _ (t.consumer.finalizeAbnormalTurn_id .interrupted endedAt)]
      at h
  | exhausted k | cancelled k =>
    obtain ⟨t, ht, rfl⟩ := Option.map_eq_some_iff.mp hstep
    obtain ⟨hturn, hrun⟩ := turnIn_some.mp ht
    exact exhausted_keepsRows hj hr hturn hrun
  | callAbort =>
    cases hstep
    exact rowsTracked_quiet hj hr (fun m x hx => hx) (fun m x hx => .inl hx) (Nat.le_refl _) rfl
      (fun k u hu => .inl ⟨u, hu, rfl, rfl⟩) (kept_same rfl)
  | applyAbort j target lost =>
    obtain ⟨b, hb, hstep⟩ := Option.bind_eq_some_iff.mp hstep
    split_ifs at hstep with hlast
    cases hstep
    exact rowsTracked_applyAbort hj hr hlast

end SessionTurns

end WittyService

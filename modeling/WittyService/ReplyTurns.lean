import WittyService.TurnMessages

/-! What a step of a running turn makes of the replies and their outcomes. -/
namespace WittyService

namespace SessionTurns

/-- The status of a message changes at most once and away from `generating`, and an abort
request changes the message of a turn that was in flight when it was called. -/
structure OutcomesFinal (s : SessionTurns) : Prop where
  once : ∀ m, s.changes m = [] ∨
    ∃ outcome, outcome ≠ .generating ∧ s.changes m = [(.generating, outcome)]
  ownTurn : ∀ j b m, s.aborts j = some b → b.changed = some m →
    ∃ k ∈ b.inFlight, ∃ t, s.turns k = some t ∧ t.assistantMsgId = some m

/-- No error is taken up for a reply that has been aborted, unless the status it gives cannot
be stored. When the local effects of an abort request come, the last reply has been aborted
already, or it is being generated by a turn that was in flight when the abort was called. -/
def EndsOnce (s : SessionTurns) : SessionAction → Prop
  | .event k a endedAt _ lost => ∀ t m x, s.turns k = some t → t.assistantMsgId = some m →
      s.messages m = some x → x.row.status = .interrupted → a.takesError = true →
        lost (.finalizeMessage .error t.consumer.assistantText endedAt) = true
  | .applyAbort j target lost => ∀ b m x, s.aborts j = some b → target = some m →
      s.messages m = some x → lost = true ∨ x.row.status = .interrupted ∨
        x.row.status = .generating ∧
          ∃ k ∈ b.inFlight, ∃ t, s.turns k = some t ∧ t.assistantMsgId = some m
  | _ => True

/-- No turn and no abort request of the session has begun; its messages are any. -/
structure Idle (s : SessionTurns) : Prop where
  messages : ∀ m, s.messageCount ≤ m → s.messages m = none
  turns : ∀ k, s.turns k = none
  aborts : ∀ j, s.aborts j = none
  changes : ∀ m, s.changes m = []

structure RepliesTracked (s : SessionTurns) : Prop where
  fresh : ∀ m, s.messageCount ≤ m → s.messages m = none ∧ s.changes m = []
  noTurn : ∀ k, s.turnCount ≤ k → s.turns k = none
  owned : ∀ k t m, s.turns k = some t → t.assistantMsgId = some m → m < s.messageCount
  apart : ∀ k k' t t' m, s.turns k = some t → s.turns k' = some t' →
    t.assistantMsgId = some m → t'.assistantMsgId = some m → k = k'
  unborn : ∀ k t, s.turns k = some t → t.stage = .preparing → t.assistantMsgId = none
  running : ∀ k t, s.turns k = some t → t.stage = .running →
    t.consumer.assistantMsgId = t.assistantMsgId.isSome ∧
      ∃ text, t.consumer.assistantText = .str text
  writing : ∀ k t m x, s.turns k = some t → t.stage = .running → t.assistantMsgId = some m →
    s.messages m = some x → x.row.status = .generating ∨ x.row.status = .interrupted
  ended : ∀ m x, s.messages m = some x → s.changes m ≠ [] → x.row.status ≠ .generating

theorem repliesTracked_idle {s : SessionTurns} (h : s.Idle) : RepliesTracked s where
  fresh := fun m hm => ⟨h.messages m hm, h.changes m⟩
  noTurn := fun k _ => h.turns k
  owned := fun k t m hturn => by simp [h.turns k] at hturn
  apart := fun k k' t t' m hturn => by simp [h.turns k] at hturn
  unborn := fun k t hturn => by simp [h.turns k] at hturn
  running := fun k t hturn => by simp [h.turns k] at hturn
  writing := fun k t m x hturn => by simp [h.turns k] at hturn
  ended := fun m x _ hne => absurd (h.changes m) hne

theorem outcomesFinal_idle {s : SessionTurns} (h : s.Idle) : OutcomesFinal s where
  once := fun m => .inl (h.changes m)
  ownTurn := fun j b m hb => by simp [h.aborts j] at hb

variable {s s' : SessionTurns}

/-- What the calls of a turn make of the messages; `id` and `id'` are its message before and
after, and `calls` are those that may set the status of that message. -/
structure MessagesAdvance (s s' : SessionTurns) (id id' : Option Nat)
    (calls : List MessageCall) : Prop where
  turnCount : s'.turnCount = s.turnCount
  aborts : s'.aborts = s.aborts
  messageCount : s.messageCount ≤ s'.messageCount
  fresh : ∀ m, s'.messageCount ≤ m → s'.messages m = s.messages m
  keeps : ∀ m, id = some m → id' = some m
  owns : ∀ m, id' = some m →
    id = some m ∨ id = none ∧ m = s.messageCount ∧ s.messageCount < s'.messageCount
  others : ∀ m, id' ≠ some m →
    (s'.messages m = s.messages m ∨ s'.messages m = none) ∧ s'.changes m = s.changes m
  stays : ∀ m, id = some m → (s.messages m).isSome → (s'.messages m).isSome
  gone : ∀ m, id' = some m → s'.messages m = none → s'.changes m = s.changes m
  status : ∀ m x', id' = some m → s'.messages m = some x' → ∃ status,
    (id = none ∧ status = .generating ∨
      id = some m ∧ ∃ x, s.messages m = some x ∧ x.row.status = status) ∧
    (x'.row.status, s'.changes m) = calls.foldl statusAfter (status, s.changes m)

section

variable (s : SessionTurns) (prompt : Nat) (replaces : Option Nat) (createdAt : Int)

theorem createReply_message : (s.createReply prompt replaces createdAt).messages s.messageCount =
      some ⟨.assistant, createdAt, ⟨.generating, .str "", none⟩⟩ := by
  cases replaces <;> exact Function.update_self ..

theorem createReply_other {m : Nat} (hm : m ≠ s.messageCount) :
    (s.createReply prompt replaces createdAt).messages m =
      if replaces = some m then none else s.messages m := by
  cases replaces with
  | none => exact Function.update_of_ne hm _ _
  | some old =>
    have hupdate : (s.createReply prompt (some old) createdAt).messages m =
        (s.deleteMessage old).messages m := Function.update_of_ne hm _ _
    rw [hupdate]
    by_cases hold : old = m
    · rw [if_pos (congrArg some hold), hold]
      exact Function.update_self ..
    · rw [if_neg fun heq => hold (Option.some.inj heq)]
      exact Function.update_of_ne (Ne.symm hold) _ _

theorem createReply_same : (s.createReply prompt replaces createdAt).messageCount =
        s.messageCount + 1 ∧
      (s.createReply prompt replaces createdAt).turns = s.turns ∧
      (s.createReply prompt replaces createdAt).turnCount = s.turnCount ∧
      (s.createReply prompt replaces createdAt).aborts = s.aborts ∧
      (s.createReply prompt replaces createdAt).changes = s.changes := by
  cases replaces <;> exact ⟨rfl, rfl, rfl, rfl, rfl⟩

end

variable {m k : Nat} {calls ending : List MessageCall} {t t' : SessionTurn}

theorem callsOn_advance (hcalls : .createMessage ∉ calls)
    (hstatus : ∀ x, calls.foldl statusAfter x = ending.foldl statusAfter x) :
    ((s.callsOn m calls).messages m = none → (s.callsOn m calls).changes m = s.changes m) ∧
      ∀ x', (s.callsOn m calls).messages m = some x' → ∃ x, s.messages m = some x ∧
        (x'.row.status, (s.callsOn m calls).changes m) =
          ending.foldl statusAfter (x.row.status, s.changes m) := by
  cases h : s.messages m with
  | none =>
    rw [callsOn_none h]
    refine ⟨fun _ => rfl, fun x' hx' => ?_⟩
    rw [h] at hx'
    cases hx'
  | some x =>
    obtain ⟨row, hrow, hlog⟩ := callsOn_status h hcalls
    rw [hstatus] at hlog
    rw [hrow]
    refine ⟨nofun, fun x' hx' => ⟨x, rfl, ?_⟩⟩
    cases hx'
    exact hlog

theorem messagesAdvance_none (s : SessionTurns) (calls : List MessageCall) :
    MessagesAdvance s s none none calls :=
  ⟨rfl, rfl, Nat.le_refl _, fun _ _ => rfl, nofun, nofun, fun _ _ => ⟨.inl rfl, rfl⟩, nofun, nofun,
    nofun⟩

theorem messagesAdvance_own (hm : m < s.messageCount) (hcalls : .createMessage ∉ calls)
    (hstatus : ∀ x, calls.foldl statusAfter x = ending.foldl statusAfter x) :
    MessagesAdvance s (s.callsOn m calls) (some m) (some m) ending := by
  have hsame := callsOn_sameBut (s := s) m calls
  obtain ⟨hgone, hlog⟩ := callsOn_advance (s := s) (m := m) hcalls hstatus
  refine ⟨hsame.turnCount, hsame.aborts, hsame.messageCount.ge, fun m' hm' => ?_, fun _ h => h,
    fun _ h => .inl h, fun m' hm' => ?_, fun m' hm' hsome => ?_, fun m' hm' => ?_,
    fun m' x' hm' hx' => ?_⟩
  · have hne : m' ≠ m := by
      have hcount := hsame.messageCount
      omega
    exact hsame.messages m' hne
  · have hne : m' ≠ m := fun heq => hm' (congrArg some heq.symm)
    exact ⟨.inl (hsame.messages m' hne), hsame.changes m' hne⟩
  · cases hm'
    obtain ⟨x, hx⟩ := Option.isSome_iff_exists.mp hsome
    obtain ⟨row, hrow, -⟩ := callsOn_status hx hcalls
    rw [hrow]
    rfl
  · cases hm'
    exact hgone
  · cases hm'
    obtain ⟨x, hx, hlog'⟩ := hlog x' hx'
    exact ⟨x.row.status, .inr ⟨rfl, x, hx, rfl⟩, hlog'⟩

theorem messagesAdvance_created (hfresh : ∀ m, s.messageCount ≤ m → s.messages m = none)
    (prompt : Nat) (replaces : Option Nat) (createdAt : Int)
    (hcalls : .createMessage ∉ calls)
    (hstatus : ∀ x, calls.foldl statusAfter x = ending.foldl statusAfter x) :
    MessagesAdvance s ((s.createReply prompt replaces createdAt).callsOn s.messageCount calls)
      none (some s.messageCount) ending := by
  obtain ⟨hcount, -, hturnCount, haborts, hchanges⟩ :=
    createReply_same s prompt replaces createdAt
  have hsame := callsOn_sameBut (s := s.createReply prompt replaces createdAt) s.messageCount calls
  obtain ⟨hgone, hlog⟩ := callsOn_advance (s := s.createReply prompt replaces createdAt)
    (m := s.messageCount) hcalls hstatus
  have hother : ∀ m, m ≠ s.messageCount →
      (((s.createReply prompt replaces createdAt).callsOn s.messageCount calls).messages m =
        if replaces = some m then none else s.messages m) := by
    intro m hm
    rw [hsame.messages m hm, createReply_other s prompt replaces createdAt hm]
  refine ⟨hsame.turnCount.trans hturnCount, hsame.aborts.trans haborts, ?_, fun m hm => ?_, nofun,
    fun m hm => ?_, fun m hm => ?_, nofun, fun m hm => ?_, fun m x' hm hx' => ?_⟩
  · rw [hsame.messageCount, hcount]
    omega
  · rw [hsame.messageCount, hcount] at hm
    rw [hother m (by omega), hfresh m (by omega), ite_self]
  · refine .inr ⟨rfl, (Option.some.inj hm).symm, ?_⟩
    rw [hsame.messageCount, hcount]
    omega
  · have hne : m ≠ s.messageCount := fun heq => hm (congrArg some heq.symm)
    rw [hother m hne, hsame.changes m hne, hchanges]
    split_ifs
    · exact ⟨.inr rfl, rfl⟩
    · exact ⟨.inl rfl, rfl⟩
  · cases hm
    rw [← hchanges]
    exact hgone
  · cases hm
    obtain ⟨x, hx, hlog'⟩ := hlog x' hx'
    rw [createReply_message] at hx
    cases hx
    rw [hchanges] at hlog'
    exact ⟨.generating, .inl ⟨rfl, rfl⟩, hlog'⟩

theorem advance_spec (hj : RepliesTracked s)
    (hturn : s.turns k = some t) (hrun : t.stage = .running) {c' : Consumer}
    {plain : List MessageCall} (hkeep : t.consumer.assistantMsgId = true →
      c'.assistantMsgId = true) (hplain : ∀ call ∈ plain, call.isPlain = true)
    (hending : .createMessage ∉ ending) (lost : MessageCall → Bool) (isOver : Bool)
    (replaces : Option Nat) (createdAt : Int) :
    ∃ t', t'.stage = (if isOver then .over else .running) ∧ t'.consumer = c' ∧
      c'.assistantMsgId = t'.assistantMsgId.isSome ∧
      (s.advance k t c' (kept lost (createdCalls t.consumer c' ++ (plain ++ ending))) isOver
        replaces createdAt).turns = Function.update s.turns k (some t') ∧
      MessagesAdvance s (s.advance k t c' (kept lost (createdCalls t.consumer c' ++
        (plain ++ ending))) isOver replaces createdAt) t.assistantMsgId t'.assistantMsgId
          (kept lost ending) := by
  have hid := (hj.running k t hturn hrun).1
  have hrest : MessageCall.createMessage ∉ plain ++ ending := by
    intro hmem
    rcases List.mem_append.mp hmem with hmem | hmem
    · exact plain_notMem hplain hmem
    · exact hending hmem
  have hkept : MessageCall.createMessage ∉ kept lost (plain ++ ending) :=
    fun hmem => hrest (mem_kept hmem)
  have hstatus := foldl_statusAfter_kept lost hplain ending
  have hcases := performed_cases s t replaces createdAt c' lost hrest hid
  have hmessages : ∃ id', c'.assistantMsgId = id'.isSome ∧ ∃ x : SessionTurns,
      (kept lost (createdCalls t.consumer c' ++ (plain ++ ending))).foldl
        (performCall t replaces createdAt) (s, t.assistantMsgId) = (x, id') ∧
      x.turns = s.turns ∧ MessagesAdvance s x t.assistantMsgId id' (kept lost ending) := by
    rcases hcases with ⟨hnone, hborn, hx⟩ | ⟨m, hsome, hx⟩ | ⟨hnone, hborn, hx⟩
    · refine ⟨none, hborn, s, hx, rfl, ?_⟩
      rw [hnone]
      exact messagesAdvance_none s _
    · refine ⟨some m, hkeep (by rw [hid, hsome]; rfl), _, hx, (callsOn_sameBut m _).turns, ?_⟩
      rw [hsome]
      exact messagesAdvance_own (hj.owned k t m hturn hsome) hkept hstatus
    · refine ⟨some s.messageCount, hborn, _, hx, ?_, ?_⟩
      · rw [(callsOn_sameBut s.messageCount _).turns]
        exact (createReply_same s t.prompt replaces createdAt).2.1
      · rw [hnone]
        exact messagesAdvance_created (fun m hm => (hj.fresh m hm).1) t.prompt replaces createdAt
          hkept hstatus
  obtain ⟨id', hborn, x, hx, hturns, h⟩ := hmessages
  unfold advance
  rw [hx]
  exact ⟨_, rfl, rfl, hborn, congrArg (Function.update · k _) hturns, h.turnCount, h.aborts,
    h.messageCount, h.fresh, h.keeps, h.owns, h.others, h.stays, h.gone,
    h.status⟩

theorem update_some_cases {α : Type*} {f : Nat → Option α} {k' : Nat} {a b : α}
    (h : Function.update f k (some a) k' = some b) : k' = k ∧ b = a ∨ k' ≠ k ∧ f k' = some b := by
  by_cases hk : k' = k
  · rw [hk, Function.update_self] at h
    exact .inl ⟨hk, (Option.some.inj h).symm⟩
  · rw [Function.update_of_ne hk] at h
    exact .inr ⟨hk, h⟩

/-- Calls that leave a reply as it is, or give it a final status. -/
def SetsOutcome (calls : List MessageCall) : Prop :=
  ∀ status, status = .generating ∨ status = .interrupted → ∀ changes,
    calls.foldl statusAfter (status, changes) = (status, changes) ∨
      ∃ outcome, outcome ≠ .generating ∧ calls.foldl statusAfter (status, changes) =
        (outcome, changes ++ [(status, outcome)])

/-- The calls find a reply that is being generated or was aborted, and that has not changed if
it is being generated. -/
theorem advance_status (hj : RepliesTracked s) {id' : Option Nat}
    (hturn : s.turns k = some t) (hrun : t.stage = .running)
    (h : MessagesAdvance s s' t.assistantMsgId id' calls) {x' : SessionMessage}
    (hm : id' = some m) (hx' : s'.messages m = some x') : ∃ status,
      (status = .generating ∧ s.changes m = [] ∨
        status = .interrupted ∧ t.assistantMsgId = some m ∧
          ∃ x, s.messages m = some x ∧ x.row.status = .interrupted) ∧
      (x'.row.status, s'.changes m) = calls.foldl statusAfter (status, s.changes m) := by
  obtain ⟨status, hwhich, hlog⟩ := h.status m x' hm hx'
  refine ⟨status, ?_, hlog⟩
  rcases hwhich with ⟨hnone, hnew⟩ | ⟨hold, x, hx, hstatus⟩
  · refine .inl ⟨hnew, ?_⟩
    rcases h.owns m hm with hold | ⟨-, hnew, -⟩
    · rw [hnone] at hold
      cases hold
    · exact (hj.fresh m (by omega)).2
  · rcases hj.writing k t m x hturn hrun hold hx with hgen | hint
    · refine .inl ⟨hstatus ▸ hgen, ?_⟩
      by_contra hchanged
      exact hj.ended m x hx hchanged hgen
    · exact .inr ⟨hstatus ▸ hint, hold, x, hx, hint⟩

theorem tracked_advance (hj : RepliesTracked s)
    (hturn : s.turns k = some t) (hrun : t.stage = .running)
    (hturns : s'.turns = Function.update s.turns k (some t'))
    (h : MessagesAdvance s s' t.assistantMsgId t'.assistantMsgId calls)
    (hcalls : SetsOutcome calls) (hstage : t'.stage ≠ .preparing)
    (hrun' : t'.stage = .running →
      (t'.consumer.assistantMsgId = t'.assistantMsgId.isSome ∧
        ∃ text, t'.consumer.assistantText = .str text) ∧
      ∀ status, status = .generating ∨ status = .interrupted → ∀ changes,
        calls.foldl statusAfter (status, changes) = (status, changes)) : RepliesTracked s' := by
  have hcases : ∀ k' u, s'.turns k' = some u →
      k' = k ∧ u = t' ∨ k' ≠ k ∧ s.turns k' = some u := by
    intro k' u hu
    rw [hturns] at hu
    exact update_some_cases hu
  -- the message of the turn belongs to no other turn
  have hforeign : ∀ k' u m, k' ≠ k → s.turns k' = some u → u.assistantMsgId = some m →
      t'.assistantMsgId ≠ some m := by
    intro k' u m hk hu hm hown
    rcases h.owns m hown with hold | ⟨-, hnew, -⟩
    · exact hk (hj.apart k' k u t m hu hturn hm hold)
    · exact absurd (hj.owned k' u m hu hm) (by omega)
  have hbound : ∀ m, t'.assistantMsgId = some m → m < s'.messageCount := by
    intro m hm
    have hcount := h.messageCount
    rcases h.owns m hm with hold | ⟨-, hnew, hlt⟩
    · have hlt := hj.owned k t m hturn hold
      omega
    · omega
  have hk : k < s.turnCount := by
    by_contra hle
    rw [hj.noTurn k (by omega)] at hturn
    cases hturn
  constructor
  case fresh =>
    intro m hm
    have hcount := h.messageCount
    obtain ⟨hmessages, hchanges⟩ := hj.fresh m (by omega)
    have hother := h.others m fun hown => by
      have hlt := hbound m hown
      omega
    exact ⟨(h.fresh m hm).trans hmessages, hother.2.trans hchanges⟩
  case noTurn =>
    intro k' hk'
    rw [h.turnCount] at hk'
    rw [hturns, Function.update_of_ne (by omega)]
    exact hj.noTurn k' hk'
  case owned =>
    intro k' u m hu hm
    rcases hcases k' u hu with ⟨-, rfl⟩ | ⟨-, hu⟩
    · exact hbound m hm
    · have hlt := hj.owned k' u m hu hm
      have hcount := h.messageCount
      omega
  case apart =>
    intro k₁ k₂ u₁ u₂ m hu₁ hu₂ hm₁ hm₂
    rcases hcases k₁ u₁ hu₁ with ⟨h₁, rfl⟩ | ⟨hne₁, hu₁⟩
    · rcases hcases k₂ u₂ hu₂ with ⟨h₂, -⟩ | ⟨hne₂, hu₂⟩
      · rw [h₁, h₂]
      · exact absurd hm₁ (hforeign k₂ u₂ m hne₂ hu₂ hm₂)
    · rcases hcases k₂ u₂ hu₂ with ⟨-, rfl⟩ | ⟨-, hu₂⟩
      · exact absurd hm₂ (hforeign k₁ u₁ m hne₁ hu₁ hm₁)
      · exact hj.apart k₁ k₂ u₁ u₂ m hu₁ hu₂ hm₁ hm₂
  case unborn =>
    intro k' u hu hprep
    rcases hcases k' u hu with ⟨-, rfl⟩ | ⟨-, hu⟩
    · exact absurd hprep hstage
    · exact hj.unborn k' u hu hprep
  case running =>
    intro k' u hu hgo
    rcases hcases k' u hu with ⟨-, rfl⟩ | ⟨-, hu⟩
    · exact (hrun' hgo).1
    · exact hj.running k' u hu hgo
  case writing =>
    intro k' u m x hu hgo hm hx
    rcases hcases k' u hu with ⟨-, rfl⟩ | ⟨hne, hu⟩
    · obtain ⟨status, hwhich, hlog⟩ := advance_status hj hturn hrun h hm hx
      have hstatus : status = .generating ∨ status = .interrupted :=
        hwhich.imp And.left And.left
      rw [(hrun' hgo).2 status hstatus, Prod.mk.injEq] at hlog
      rw [hlog.1]
      exact hstatus
    · obtain ⟨hsame | hgone, -⟩ := h.others m (hforeign k' u m hne hu hm)
      · rw [hsame] at hx
        exact hj.writing k' u m x hu hgo hm hx
      · rw [hgone] at hx
        cases hx
  case ended =>
    intro m x hx hne
    by_cases hown : t'.assistantMsgId = some m
    · obtain ⟨status, hwhich, hlog⟩ := advance_status hj hturn hrun h hown hx
      have hstatus : status = .generating ∨ status = .interrupted :=
        hwhich.imp And.left And.left
      rcases hcalls status hstatus (s.changes m) with hsame | ⟨outcome, houtcome, hnew⟩
      · rw [hsame, Prod.mk.injEq] at hlog
        rw [hlog.2] at hne
        rw [hlog.1]
        rcases hwhich with ⟨-, hunchanged⟩ | ⟨rfl, -⟩
        · exact absurd hunchanged hne
        · nofun
      · rw [hnew, Prod.mk.injEq] at hlog
        rw [hlog.1]
        exact houtcome
    · obtain ⟨hsame | hgone, hchanges⟩ := h.others m hown
      · rw [hsame] at hx
        rw [hchanges] at hne
        exact hj.ended m x hx hne
      · rw [hgone] at hx
        cases hx

theorem ownTurn_of_turns (hq : OutcomesFinal s) (haborts : s'.aborts = s.aborts)
    (hturns : ∀ k t m, s.turns k = some t → t.assistantMsgId = some m →
      ∃ t', s'.turns k = some t' ∧ t'.assistantMsgId = some m) :
    ∀ j b m, s'.aborts j = some b → b.changed = some m →
      ∃ k ∈ b.inFlight, ∃ t, s'.turns k = some t ∧ t.assistantMsgId = some m := by
  intro j b m hb hchanged
  rw [haborts] at hb
  obtain ⟨k, hk, t, hturn, hm⟩ := hq.ownTurn j b m hb hchanged
  exact ⟨k, hk, hturns k t m hturn hm⟩

theorem outcomesFinal_advance_iff (hj : RepliesTracked s) (hq : OutcomesFinal s)
    (hturn : s.turns k = some t)
    (hrun : t.stage = .running) (hturns : s'.turns = Function.update s.turns k (some t'))
    (h : MessagesAdvance s s' t.assistantMsgId t'.assistantMsgId calls)
    (hcalls : SetsOutcome calls) :
    OutcomesFinal s' ↔ ∀ m x, t.assistantMsgId = some m → s.messages m = some x →
      x.row.status = .interrupted → calls.foldl statusAfter (.interrupted, s.changes m) =
        (.interrupted, s.changes m) := by
  constructor
  · intro hq' m x hm hx hstatus
    have hm' := h.keeps m hm
    obtain ⟨x', hx'⟩ := Option.isSome_iff_exists.mp (h.stays m hm (by rw [hx]; rfl))
    obtain ⟨status, hwhich, hlog⟩ := h.status m x' hm' hx'
    have hfound : status = .interrupted := by
      rcases hwhich with ⟨hnone, -⟩ | ⟨-, x₀, hx₀, hfound⟩
      · rw [hm] at hnone
        cases hnone
      · rw [hx] at hx₀
        cases hx₀
        exact hfound.symm.trans hstatus
    rw [hfound] at hlog
    rcases hcalls .interrupted (.inr rfl) (s.changes m) with hsame | ⟨outcome, -, hnew⟩
    · exact hsame
    · rw [hnew, Prod.mk.injEq] at hlog
      -- the status of the aborted reply would be changed once more
      rcases hq'.once m with hnil | ⟨outcome', -, hone⟩
      · rw [hlog.2] at hnil
        exact absurd hnil (by simp)
      · rw [hlog.2] at hone
        have hlast := congrArg List.getLast? hone
        simp at hlast
  · intro hsame
    refine ⟨fun m => ?_, ownTurn_of_turns hq h.aborts fun k' u m hu hm => ?_⟩
    · by_cases hm : t'.assistantMsgId = some m
      · cases hx' : s'.messages m with
        | none =>
          rw [h.gone m hm hx']
          exact hq.once m
        | some x' =>
          obtain ⟨status, hwhich, hlog⟩ := advance_status hj hturn hrun h hm hx'
          rcases hwhich with ⟨rfl, hunchanged⟩ | ⟨rfl, hold, x, hx, hstatus⟩
          · rcases hcalls .generating (.inl rfl) (s.changes m) with heq | ⟨outcome, hne, hnew⟩
            · rw [heq, Prod.mk.injEq] at hlog
              exact .inl (hlog.2.trans hunchanged)
            · rw [hnew, Prod.mk.injEq, hunchanged] at hlog
              exact .inr ⟨outcome, hne, hlog.2⟩
          · rw [hsame m x hold hx hstatus, Prod.mk.injEq] at hlog
            rw [hlog.2]
            exact hq.once m
      · rw [(h.others m hm).2]
        exact hq.once m
    · rw [hturns]
      by_cases hk : k' = k
      · subst hk
        rw [hturn] at hu
        cases hu
        exact ⟨t', Function.update_self .., h.keeps m hm⟩
      · exact ⟨u, by rw [Function.update_of_ne hk, hu], hm⟩

end SessionTurns

end WittyService

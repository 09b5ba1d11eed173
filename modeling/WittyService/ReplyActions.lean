import WittyService.ReplyTurns

/-! What the actions of a session beside the events of a turn make of the replies. -/
namespace WittyService

namespace SessionTurns

variable {s s' : SessionTurns}

theorem outcomesFinal_of_same (hq : OutcomesFinal s) (hchanges : s'.changes = s.changes)
    (haborts : s'.aborts = s.aborts)
    (hturns : ∀ k t m, s.turns k = some t → t.assistantMsgId = some m →
      ∃ t', s'.turns k = some t' ∧ t'.assistantMsgId = some m) : OutcomesFinal s' :=
  ⟨fun m => hchanges ▸ hq.once m, ownTurn_of_turns hq haborts hturns⟩

section

variable (hj : RepliesTracked s)
include hj

theorem repliesTracked_registry (registry : SessionStreamRegistry WsEvent)
    : RepliesTracked { s with registry := registry } :=
  ⟨hj.fresh, hj.noTurn, hj.owned, hj.apart, hj.unborn, hj.running, hj.writing, hj.ended⟩

theorem repliesTracked_addMessage (message : SessionMessage) :
    RepliesTracked (s.addMessage message) where
  fresh := by
    intro m hm
    have hlt : s.messageCount < m := hm
    obtain ⟨hmessages, hchanges⟩ := hj.fresh m (by omega)
    exact ⟨(Function.update_of_ne (by omega) _ _).trans hmessages, hchanges⟩
  noTurn := hj.noTurn
  owned := fun k t m hturn hm => Nat.lt_succ_of_lt (hj.owned k t m hturn hm)
  apart := hj.apart
  unborn := hj.unborn
  running := hj.running
  writing := by
    intro k t m x hturn hrun hm hx
    have hlt := hj.owned k t m hturn hm
    have hold : (s.addMessage message).messages m = s.messages m :=
      Function.update_of_ne (by omega) _ _
    exact hj.writing k t m x hturn hrun hm (hold ▸ hx)
  ended := by
    intro m x hx hne
    by_cases hm : m = s.messageCount
    · exact absurd (hj.fresh m (by omega)).2 hne
    · have hold : (s.addMessage message).messages m = s.messages m :=
        Function.update_of_ne hm _ _
      exact hj.ended m x (hold ▸ hx) hne

theorem repliesTracked_withTurn {k n : Nat} {t : SessionTurn}
    (hk : k < n) (hn : s.turnCount ≤ n) (hid : t.assistantMsgId = none)
    (hstage : t.stage = .running →
      t.consumer.assistantMsgId = false ∧ ∃ text, t.consumer.assistantText = .str text) :
    RepliesTracked { s with turns := Function.update s.turns k (some t), turnCount := n } := by
  refine ⟨hj.fresh, fun k' hk' => ?_, fun k' u m hu hm => ?_,
    fun k₁ k₂ u₁ u₂ m hu₁ hu₂ hm₁ hm₂ => ?_, fun k' u hu hprep => ?_, fun k' u hu hrun => ?_,
    fun k' u m x hu hrun hm hx => ?_, hj.ended⟩
  · have hle : n ≤ k' := hk'
    exact (Function.update_of_ne (by omega) _ _).trans (hj.noTurn k' (by omega))
  · rcases update_some_cases hu with ⟨-, rfl⟩ | ⟨-, hu⟩
    · rw [hid] at hm
      cases hm
    · exact hj.owned k' u m hu hm
  · rcases update_some_cases hu₁ with ⟨-, rfl⟩ | ⟨-, hu₁⟩
    · rw [hid] at hm₁
      cases hm₁
    · rcases update_some_cases hu₂ with ⟨-, rfl⟩ | ⟨-, hu₂⟩
      · rw [hid] at hm₂
        cases hm₂
      · exact hj.apart k₁ k₂ u₁ u₂ m hu₁ hu₂ hm₁ hm₂
  · rcases update_some_cases hu with ⟨-, rfl⟩ | ⟨-, hu⟩
    · exact hid
    · exact hj.unborn k' u hu hprep
  · rcases update_some_cases hu with ⟨-, rfl⟩ | ⟨-, hu⟩
    · rw [hid]
      exact hstage hrun
    · exact hj.running k' u hu hrun
  · rcases update_some_cases hu with ⟨-, rfl⟩ | ⟨-, hu⟩
    · rw [hid] at hm
      cases hm
    · exact hj.writing k' u m x hu hrun hm hx

theorem turns_addTurn (t : SessionTurn) {k : Nat} {u : SessionTurn}
    (hu : s.turns k = some u) : (s.addTurn t).turns k = some u := by
  have hk : k ≠ s.turnCount := by
    rintro rfl
    rw [hj.noTurn _ (Nat.le_refl _)] at hu
    cases hu
  exact (Function.update_of_ne hk _ _).trans hu

end

variable {k m : Nat} {t : SessionTurn} {x : SessionMessage} {isOver : Bool} {endedAt : Int}
  {ending : List MessageCall}

theorem turns_setTurn {k' : Nat} {t' u : SessionTurn} (hturn : s.turns k = some t)
    (hid : t.assistantMsgId = none) (hu : s.turns k' = some u) (hm : u.assistantMsgId = some m) :
    ∃ u', (s.setTurn k t').turns k' = some u' ∧ u'.assistantMsgId = some m := by
  have hk : k' ≠ k := by
    rintro rfl
    rw [hturn] at hu
    cases hu
    rw [hid] at hm
    cases hm
  exact ⟨u, (Function.update_of_ne hk _ _).trans hu, hm⟩

section

variable (hj : RepliesTracked s)
include hj

variable {t : SessionTurn}

theorem turn_lt {k : Nat} (hturn : s.turns k = some t) :
    k < s.turnCount := by
  by_contra hle
  rw [hj.noTurn k (by omega)] at hturn
  cases hturn

theorem send_keeps {content : String} {createdAt : Int} {lastAssistant : Option Nat}
    (h : s.send content createdAt lastAssistant = some s') :
    RepliesTracked s' ∧ (OutcomesFinal s → OutcomesFinal s') := by
  obtain ⟨sent, rfl⟩ := send_cases h
  have hstored := repliesTracked_addMessage hj ⟨.user, createdAt, ⟨.completed, .str content, none⟩⟩
  refine ⟨repliesTracked_withTurn hstored (Nat.lt_succ_self _) (Nat.le_succ _) rfl nofun, ?_⟩
  exact fun hq => outcomesFinal_of_same hq rfl rfl fun k t m hturn hm =>
    ⟨t, turns_addTurn hstored _ hturn, hm⟩

theorem regenerate_keeps {target prompt : Option Nat} (h : s.regenerate target prompt = some s') :
    RepliesTracked s' ∧ (OutcomesFinal s → OutcomesFinal s') := by
  rcases regenerate_cases h with
    rfl | ⟨-, rfl | ⟨m, p, reply, message, content, -, -, -, -, -, -, -, rfl⟩⟩
  · exact ⟨hj, fun hq => hq⟩
  · exact ⟨repliesTracked_registry hj _, fun hq =>
      outcomesFinal_of_same hq rfl rfl fun k t m hturn hm => ⟨t, hturn, hm⟩⟩
  · have hreserved := repliesTracked_registry hj s.registry.startStream
    refine ⟨repliesTracked_withTurn hreserved (Nat.lt_succ_self _) (Nat.le_succ _) rfl nofun, ?_⟩
    exact fun hq => outcomesFinal_of_same hq rfl rfl fun k t m hturn hm =>
      ⟨t, turns_addTurn hreserved _ hturn, hm⟩

theorem setTurn_keeps {k : Nat} (t' : SessionTurn) (hturn : s.turns k = some t)
    (hprep : t.stage = .preparing) (hid : t'.assistantMsgId = t.assistantMsgId)
    (hstage : t'.stage = .running →
      t'.consumer.assistantMsgId = false ∧ ∃ text, t'.consumer.assistantText = .str text)
    (registry : SessionStreamRegistry WsEvent) :
    RepliesTracked { s.setTurn k t' with registry := registry } ∧
      (OutcomesFinal s → OutcomesFinal { s.setTurn k t' with registry := registry }) := by
  have hnone := hj.unborn k t hturn hprep
  refine ⟨repliesTracked_registry (repliesTracked_withTurn hj (turn_lt hj hturn) (Nat.le_refl _)
    (hid.trans hnone) hstage) registry, ?_⟩
  exact fun hq => outcomesFinal_of_same hq rfl rfl fun k' u m hu hm =>
    turns_setTurn hturn hnone hu hm

theorem callAbort_keeps :
    RepliesTracked s.callAbort ∧ (OutcomesFinal s → OutcomesFinal s.callAbort) := by
  refine ⟨⟨hj.fresh, hj.noTurn, hj.owned, hj.apart, hj.unborn, hj.running, hj.writing, hj.ended⟩,
    fun hq => ⟨hq.once, fun j b m hb hchanged => ?_⟩⟩
  rcases update_some_cases hb with ⟨-, rfl⟩ | ⟨-, hb⟩
  · cases hchanged
  · exact hq.ownTurn j b m hb hchanged

end

def aborting (s : SessionTurns) (m : Nat) (lost : Bool) : SessionTurns :=
  if lost then s else s.callOn m (.updateMessageStatus .interrupted)

theorem aborting_status (lost : Bool) (hx : s.messages m = some x) : (s.aborting m lost).changes m =
        (if lost = true ∨ x.row.status = .interrupted then s.changes m
          else s.changes m ++ [(x.row.status, .interrupted)]) ∧
      ∀ x', (s.aborting m lost).messages m = some x' →
        x'.row.status = if lost then x.row.status else .interrupted := by
  cases lost with
  | true =>
    refine ⟨(if_pos (.inl rfl)).symm, fun x' hx' => ?_⟩
    have hsame : s.messages m = some x' := hx'
    rw [hx] at hsame
    cases hsame
    rfl
  | false =>
    have hcall : MessageCall.updateMessageStatus .interrupted ≠ .createMessage := nofun
    obtain ⟨row, hrow, hlog⟩ := callOn_status hx hcall
    simp only [statusAfter, reduceCtorEq, false_and, if_false, Prod.mk.injEq] at hlog
    simp only [aborting, Bool.false_eq_true, if_false, false_or]
    refine ⟨?_, fun x' hx' => ?_⟩
    · rw [hlog.2]
      simp only [eq_comm]
    · rw [hrow] at hx'
      cases hx'
      exact hlog.1

theorem aborting_sameBut (m : Nat) (lost : Bool) : SameBut m s (s.aborting m lost) := by
  unfold aborting
  split_ifs
  · exact SameBut.refl m s
  · exact callOn_sameBut m _

theorem repliesTracked_aborting (hj : RepliesTracked s)
    (hx : s.messages m = some x) (lost : Bool) : RepliesTracked (s.aborting m lost) := by
  have hsame := aborting_sameBut (s := s) m lost
  obtain ⟨hchanges, hstatus⟩ := aborting_status lost hx
  have hm : m < s.messageCount := by
    by_contra hle
    rw [(hj.fresh m (by omega)).1] at hx
    cases hx
  refine ⟨fun m' hm' => ?_, ?_, ?_, ?_, ?_, ?_, ?_, ?_⟩
  · rw [hsame.messageCount] at hm'
    rw [hsame.messages m' (by omega), hsame.changes m' (by omega)]
    exact hj.fresh m' hm'
  · rw [hsame.turns, hsame.turnCount]
    exact hj.noTurn
  · rw [hsame.turns, hsame.messageCount]
    exact hj.owned
  · rw [hsame.turns]
    exact hj.apart
  · rw [hsame.turns]
    exact hj.unborn
  · rw [hsame.turns]
    exact hj.running
  · intro k t m' x' hturn hrun hm' hx'
    rw [hsame.turns] at hturn
    by_cases hne : m' = m
    · subst hne
      rw [hstatus x' hx']
      split_ifs
      · exact hj.writing k t m' x hturn hrun hm' hx
      · exact .inr rfl
    · rw [hsame.messages m' hne] at hx'
      exact hj.writing k t m' x' hturn hrun hm' hx'
  · intro m' x' hx' hne'
    by_cases hne : m' = m
    · subst hne
      rw [hstatus x' hx']
      split_ifs with hlost
      · subst hlost
        exact hj.ended m' x hx hne'
      · nofun
    · rw [hsame.messages m' hne] at hx'
      rw [hsame.changes m' hne] at hne'
      exact hj.ended m' x' hx' hne'

theorem applyAbort_eq (s : SessionTurns) (j m : Nat) (b : SessionAbort) (lost : Bool) :
    s.applyAbort j b (some m) lost = { s.aborting m lost with
      aborts := Function.update s.aborts j (some ⟨false, b.inFlight,
        if (s.aborting m lost).changes m ≠ s.changes m then some m else none⟩) } := by
  unfold applyAbort aborting
  simp only [Option.filter, decide_eq_true_eq]

theorem applyAbort_keeps (hj : RepliesTracked s) {j : Nat}
    {b : SessionAbort} {target : Option Nat} {lost : Bool} (hb : s.aborts j = some b)
    (hlast : s.isLast SessionMessage.isAssistant target = true) :
    RepliesTracked (s.applyAbort j b target lost) ∧ (OutcomesFinal s →
      (OutcomesFinal (s.applyAbort j b target lost) ↔
        EndsOnce s (.applyAbort j target lost))) := by
  cases target with
  | none =>
    refine ⟨⟨hj.fresh, hj.noTurn, hj.owned, hj.apart, hj.unborn, hj.running, hj.writing, hj.ended⟩,
      fun hq => iff_of_true ⟨hq.once, fun j' b' m hb' hchanged => ?_⟩ nofun⟩
    rcases update_some_cases hb' with ⟨-, rfl⟩ | ⟨-, hb'⟩
    · cases hchanged
    · exact hq.ownTurn j' b' m hb' hchanged
  | some m =>
    obtain ⟨x, hx, -, -⟩ := isLast_some hlast
    have hsame := aborting_sameBut (s := s) m lost
    obtain ⟨hchanges, -⟩ := aborting_status lost hx
    have hj' := repliesTracked_aborting hj hx lost
    rw [applyAbort_eq]
    refine ⟨⟨hj'.fresh, hj'.noTurn, hj'.owned, hj'.apart, hj'.unborn, hj'.running, hj'.writing,
      hj'.ended⟩, fun hq => ?_⟩
    constructor
    · -- final afterwards: the outcome the abort adds is the reply's only one
      intro hq' b' m' x' hb' hm' hx'
      rw [hb] at hb'
      cases hb'
      cases hm'
      rw [hx] at hx'
      cases hx'
      by_cases hno : lost = true ∨ x.row.status = .interrupted
      · exact hno.imp_right .inl
      rw [if_neg hno] at hchanges
      have hgen : x.row.status = .generating := by
        rcases hq'.once m with hnil | ⟨outcome, -, hone⟩
        · rw [show _ = _ from hchanges] at hnil
          exact absurd hnil (by simp)
        · rw [show _ = _ from hchanges] at hone
          have hlast := congrArg List.getLast? hone
          simp only [List.getLast?_append, List.getLast?_singleton, Option.some_or,
            Option.some.injEq, Prod.mk.injEq] at hlast
          exact hlast.1
      refine .inr (.inr ⟨hgen, ?_⟩)
      have hchanged : (s.aborting m lost).changes m ≠ s.changes m := by
        rw [hchanges]
        simp
      obtain ⟨k, hk, t, hturn, hm⟩ := hq'.ownTurn j _ m (Function.update_self ..) (if_pos hchanged)
      rw [show _ = s.turns from hsame.turns] at hturn
      exact ⟨k, hk, t, hturn, hm⟩
    · -- a lost update or an interrupted row changes nothing; else the row generates
      intro hends
      have hcase := hends b m x hb rfl hx
      refine ⟨fun m' => ?_, fun j' b' m' hb' hchanged => ?_⟩
      · by_cases hm' : m' = m
        · subst hm'
          by_cases hno : lost = true ∨ x.row.status = .interrupted
          · rw [if_pos hno] at hchanges
            rw [show _ = _ from hchanges]
            exact hq.once m'
          · rw [if_neg hno] at hchanges
            obtain ⟨hgen, -⟩ := (hcase.resolve_left fun h => hno (.inl h)).resolve_left
              fun h => hno (.inr h)
            have hunchanged : s.changes m' = [] := by
              by_contra hne
              exact hj.ended m' x hx hne hgen
            refine .inr ⟨.interrupted, nofun, ?_⟩
            rw [show _ = _ from hchanges, hunchanged, hgen]
            rfl
        · rw [show _ = _ from hsame.changes m' hm']
          exact hq.once m'
      · have hturns : (s.aborting m lost).turns = s.turns := hsame.turns
        rcases update_some_cases hb' with ⟨-, rfl⟩ | ⟨-, hb'⟩
        · split_ifs at hchanged with hne
          cases hchanged
          have hno : ¬(lost = true ∨ x.row.status = .interrupted) := by
            intro hno
            rw [if_pos hno] at hchanges
            exact hne hchanges
          obtain ⟨-, k, hk, t, hturn, hm⟩ := (hcase.resolve_left fun h => hno (.inl h)).resolve_left
            fun h => hno (.inr h)
          exact ⟨k, hk, t, (congrFun hturns k).trans hturn, hm⟩
        · obtain ⟨k, hk, t, hturn, hm⟩ := hq.ownTurn j' b' m' hb' hchanged
          exact ⟨k, hk, t, (congrFun hturns k).trans hturn, hm⟩

theorem setsOutcome_ending (h : EndingCalls isOver endedAt ending) (lost : MessageCall → Bool) :
    SetsOutcome (kept lost ending) := by
  intro status hstatus changes
  rcases foldl_statusAfter_ending h lost hstatus changes with hsame | ⟨-, rfl, outcome, hne, hnew⟩
  · exact .inl hsame
  · exact .inr ⟨outcome, hne, hnew⟩

theorem setsOutcome_error (text : String) (endedAt : Int) (lost : MessageCall → Bool) :
    SetsOutcome (kept lost [.finalizeMessage .error (.str text) endedAt]) := by
  intro status hstatus changes
  have hne : status ≠ .error := by
    rcases hstatus with rfl | rfl <;> nofun
  rw [foldl_statusAfter_error lost hne]
  split_ifs
  · exact .inl rfl
  · exact .inr ⟨.error, nofun, rfl⟩

theorem ending_keeps (hj : RepliesTracked s)
    (hturn : s.turns k = some t) (hrun : t.stage = .running) {c' : Consumer}
    {plain : List MessageCall}
    (hkeep : t.consumer.assistantMsgId = true → c'.assistantMsgId = true)
    (hplain : ∀ call ∈ plain, call.isPlain = true) (hending : EndingCalls isOver endedAt ending)
    (htext : isOver = false → ∃ text, c'.assistantText = .str text) (lost : MessageCall → Bool)
    (replaces : Option Nat) (createdAt : Int) :
    RepliesTracked (s.advance k t c' (kept lost (createdCalls t.consumer c' ++ (plain ++ ending)))
        isOver replaces createdAt) ∧
      (OutcomesFinal s → OutcomesFinal (s.advance k t c' (kept lost (createdCalls t.consumer c' ++
        (plain ++ ending))) isOver replaces createdAt)) := by
  obtain ⟨t', hstage, hconsumer, hborn, hturns, h⟩ := advance_spec hj hturn hrun hkeep hplain
    (ending_notMem hending) lost isOver replaces createdAt
  have hcalls := setsOutcome_ending hending lost
  have hrunning : t'.stage = .running → isOver = false := by
    intro hgo
    rw [hgo] at hstage
    cases isOver with
    | false => rfl
    | true => cases hstage
  constructor
  · refine tracked_advance hj hturn hrun hturns h hcalls ?_ fun hgo => ⟨?_, ?_⟩
    · rw [hstage]
      split_ifs <;> nofun
    · rw [hconsumer]
      exact ⟨hborn, htext (hrunning hgo)⟩
    · intro status hstatus changes
      rcases foldl_statusAfter_ending hending lost hstatus changes with hsame | ⟨hover, -⟩
      · exact hsame
      · rw [hrunning hgo] at hover
        cases hover
  · intro hq
    refine (outcomesFinal_advance_iff hj hq hturn hrun hturns h hcalls).mpr ?_
    intro m x hm hx hstatus
    rcases foldl_statusAfter_ending hending lost (.inr rfl) (s.changes m) with hsame | ⟨-, hgen, -⟩
    · exact hsame
    · cases hgen

theorem event_keeps (ws : Workspace) (hj : RepliesTracked s)
    (hturn : s.turns k = some t) (hrun : t.stage = .running) (a : Arrival)
    (endedAt createdAt : Int) (lost : MessageCall → Bool) (replaces : Option Nat) :
    RepliesTracked (s.advance k t (t.consumer.receive ws a endedAt).1
        (kept lost (t.consumer.receive ws a endedAt).2.1) (t.consumer.receive ws a endedAt).2.2
        replaces createdAt) ∧
      (OutcomesFinal s → (OutcomesFinal (s.advance k t (t.consumer.receive ws a endedAt).1
        (kept lost (t.consumer.receive ws a endedAt).2.1) (t.consumer.receive ws a endedAt).2.2
        replaces createdAt) ↔ EndsOnce s (.event k a endedAt createdAt lost))) := by
  obtain ⟨-, text, htext⟩ := hj.running k t hturn hrun
  cases herror : a.takesError with
  | false =>
    obtain ⟨hkeep, plain, ending, hplain, hcalls, hending⟩ :=
      t.consumer.receive_other ws endedAt herror
    rw [hcalls]
    obtain ⟨hj', hq'⟩ := ending_keeps hj hturn hrun hkeep hplain hending
      (fun hgo => t.consumer.receive_text ws hgo ⟨text, htext⟩) lost replaces createdAt
    refine ⟨hj', fun hq => iff_of_true (hq' hq) fun t' m x _ _ _ _ htakes => ?_⟩
    rw [herror] at htakes
    cases htakes
  | true =>
    obtain ⟨hover, hborn, plain, hplain, hcalls⟩ := t.consumer.receive_error ws endedAt herror
    rw [hcalls, hover, htext]
    have hending : MessageCall.createMessage ∉
        [MessageCall.finalizeMessage .error (.str text) endedAt] := by simp
    have hne : MessageStatus.interrupted ≠ .error := nofun
    obtain ⟨t', hstage, hconsumer, hborn', hturns, h⟩ := advance_spec hj hturn hrun
      (fun _ => hborn) hplain hending lost true replaces createdAt
    have hsets := setsOutcome_error text endedAt lost
    have hstage' : t'.stage = .over := hstage
    constructor
    · refine tracked_advance hj hturn hrun hturns h hsets ?_ fun hgo => ?_
      · rw [hstage']
        nofun
      · rw [hstage'] at hgo
        cases hgo
    · intro hq
      rw [outcomesFinal_advance_iff hj hq hturn hrun hturns h hsets]
      constructor
      · intro hsame t₀ m x ht₀ hm hx hstatus _
        rw [hturn] at ht₀
        cases ht₀
        have hlog := hsame m x hm hx hstatus
        rw [foldl_statusAfter_error lost hne] at hlog
        rw [htext]
        by_contra hlost
        rw [if_neg hlost, Prod.mk.injEq] at hlog
        cases hlog.1
      · intro hends m x hm hx hstatus
        have hlost := hends t m x hturn hm hx hstatus herror
        rw [htext] at hlost
        rw [foldl_statusAfter_error lost hne, if_pos hlost]

section

variable (hj : RepliesTracked s) {k : Nat} {t : SessionTurn} (hturn : s.turns k = some t)
  (hrun : t.stage = .running)
include hj hturn hrun

theorem recvRaises_keeps (endedAt : Int) (lost : MessageCall → Bool) :
    RepliesTracked (s.advance k t (t.consumer.finalizeAbnormalTurn .interrupted endedAt).1
        (kept lost (t.consumer.finalizeAbnormalTurn .interrupted endedAt).2) true none 0) ∧
      (OutcomesFinal s →
        OutcomesFinal (s.advance k t (t.consumer.finalizeAbnormalTurn .interrupted endedAt).1
          (kept lost (t.consumer.finalizeAbnormalTurn .interrupted endedAt).2) true none 0)) := by
  obtain ⟨plain, hplain, hcalls⟩ := t.consumer.fail_calls t.consumer .interrupted endedAt
    ⟨[], by simp, (List.append_nil _).symm⟩
  rw [Consumer.createdCalls_same _ rfl, List.nil_append] at hcalls
  rw [hcalls]
  have hid := t.consumer.finalizeAbnormalTurn_id .interrupted endedAt
  have hending : EndingCalls true endedAt (if t.consumer.assistantMsgId then
      [.finalizeMessage .interrupted t.consumer.assistantText endedAt] else []) := by
    split_ifs
    · exact .inr ⟨rfl, .inr ⟨_, rfl⟩⟩
    · exact .inl rfl
  exact ending_keeps hj hturn hrun (fun h => hid.trans h) hplain hending nofun lost none 0

theorem exhausted_keeps :
    RepliesTracked (s.advance k t t.consumer [] true none 0) ∧
      (OutcomesFinal s → OutcomesFinal (s.advance k t t.consumer [] true none 0)) := by
  have hplain : ∀ call ∈ ([] : List MessageCall), call.isPlain = true := by simp
  have hending : EndingCalls true 0 [] := .inl rfl
  have h := ending_keeps hj hturn hrun (fun h => h) hplain hending nofun (fun _ => false) none 0
  rw [Consumer.createdCalls_same _ rfl] at h
  exact h

end

end SessionTurns

/-! When the outcome of a reply is final: the events of its turn and the abort requests of the
session all write its status. -/

namespace SessionTurns

variable {s s' : SessionTurns}

theorem step_keeps (ws : Workspace) {a : SessionAction} (hj : RepliesTracked s)
    (hstep : s.step ws a = some s') :
    RepliesTracked s' ∧ (OutcomesFinal s → (OutcomesFinal s' ↔ EndsOnce s a)) := by
  cases a with
  | send content createdAt lastAssistant =>
    obtain ⟨hj', hq'⟩ := send_keeps hj hstep
    exact ⟨hj', fun hq => iff_of_true (hq' hq) trivial⟩
  | regenerate target prompt =>
    obtain ⟨hj', hq'⟩ := regenerate_keeps hj hstep
    exact ⟨hj', fun hq => iff_of_true (hq' hq) trivial⟩
  | prepared k lastCheckpointTime lastFlushTime =>
    obtain ⟨t, ht, rfl⟩ := Option.map_eq_some_iff.mp hstep
    obtain ⟨hturn, hprep⟩ := turnIn_some.mp ht
    obtain ⟨hj', hq'⟩ := setTurn_keeps hj { t with
      stage := .running
      streamGen := some (t.streamGen.getD s.registry.nextGeneration)
      consumer := .new lastCheckpointTime lastFlushTime } hturn hprep rfl
        (fun _ => ⟨rfl, "", rfl⟩) _
    exact ⟨hj', fun hq => iff_of_true (hq' hq) trivial⟩
  | prepareFails k =>
    obtain ⟨t, ht, rfl⟩ := Option.map_eq_some_iff.mp hstep
    obtain ⟨hturn, hprep⟩ := turnIn_some.mp ht
    obtain ⟨hj', hq'⟩ := setTurn_keeps hj { t with stage := .over } hturn hprep rfl nofun _
    exact ⟨hj', fun hq => iff_of_true (hq' hq) trivial⟩
  | event k a endedAt createdAt lost =>
    obtain ⟨t, ht, rfl⟩ := Option.map_eq_some_iff.mp hstep
    obtain ⟨hturn, hrun⟩ := turnIn_some.mp ht
    exact event_keeps ws hj hturn hrun a endedAt createdAt lost _
  | recvRaises k endedAt lost =>
    obtain ⟨t, ht, rfl⟩ := Option.map_eq_some_iff.mp hstep
    obtain ⟨hturn, hrun⟩ := turnIn_some.mp ht
    obtain ⟨hj', hq'⟩ := recvRaises_keeps hj hturn hrun endedAt lost
    exact ⟨hj', fun hq => iff_of_true (hq' hq) trivial⟩
  | exhausted k | cancelled k =>
    obtain ⟨t, ht, rfl⟩ := Option.map_eq_some_iff.mp hstep
    obtain ⟨hturn, hrun⟩ := turnIn_some.mp ht
    obtain ⟨hj', hq'⟩ := exhausted_keeps hj hturn hrun
    exact ⟨hj', fun hq => iff_of_true (hq' hq) trivial⟩
  | callAbort =>
    cases hstep
    obtain ⟨hj', hq'⟩ := callAbort_keeps hj
    exact ⟨hj', fun hq => iff_of_true (hq' hq) trivial⟩
  | applyAbort j target lost =>
    obtain ⟨b, hb, hstep⟩ := Option.bind_eq_some_iff.mp hstep
    split_ifs at hstep with hlast
    cases hstep
    exact applyAbort_keeps hj (Option.filter_eq_some_iff.mp hb).1 hlast

/-- The outcome of every reply is final in exactly the runs in which no error is taken up for an
aborted reply and every abort finds the reply of a turn it was called for. -/
theorem outcomes_final_iff (ws : Workspace) {s : SessionTurns} (h : s.Idle)
    (as : List SessionAction) : GuardedRuns.Always (step ws) OutcomesFinal s as ↔
      GuardedRuns.Guarded (step ws) EndsOnce s as :=
  GuardedRuns.always_iff_guarded (fun _ _ _ hj _ _ hstep => (step_keeps ws hj hstep).1)
    (fun _ _ _ hj hq hstep => (step_keeps ws hj hstep).2 hq) (repliesTracked_idle h)
    (outcomesFinal_idle h)

theorem idle_new : Idle .new := ⟨fun _ _ => rfl, fun _ => rfl, fun _ => rfl, fun _ => rfl⟩

/-- A question that is answered while an abort is called and finds nothing to do. -/
theorem answered_once : GuardedRuns.Always (step ⟨fun _ => none, fun _ => false⟩) OutcomesFinal .new
    [.send "q" 1 none, .prepared 0 0 0, .callAbort,
      .event 0 ⟨⟨.turnCompleted, .obj []⟩, false, 0, 0, 0, 0⟩ 0 2 (fun _ => false)] := by
  apply (outcomes_final_iff _ idle_new _).mpr
  intro s₁ _
  refine ⟨trivial, fun s₂ _ => ⟨trivial, fun s₃ _ => ⟨trivial, fun s₄ _ => ⟨?_, trivial⟩⟩⟩⟩
  intro t m x _ _ _ _ htakes
  cases htakes

/-- An abort that is called when the reply has been completed makes it interrupted. -/
theorem completed_reply_aborted : ¬ ∀ (ws : Workspace) (s : SessionTurns), s.Idle →
    ∀ as, GuardedRuns.Always (step ws) OutcomesFinal s as := by
  intro h
  have hrun := h ⟨fun _ => none, fun _ => false⟩ .new idle_new
    [.send "q" 1 none, .prepared 0 0 0,
      .event 0 ⟨⟨.turnCompleted, .obj []⟩, false, 0, 0, 0, 0⟩ 0 2 (fun _ => false),
      .callAbort, .applyAbort 0 (some 1) false]
  obtain ⟨s, hs, hchanges⟩ : ∃ s, GuardedRuns.run (step ⟨fun _ => none, fun _ => false⟩) .new
      [.send "q" 1 none, .prepared 0 0 0,
        .event 0 ⟨⟨.turnCompleted, .obj []⟩, false, 0, 0, 0, 0⟩ 0 2 (fun _ => false),
        .callAbort, .applyAbort 0 (some 1) false] = some s ∧
      s.changes 1 = [(.generating, .completed), (.completed, .interrupted)] := ⟨_, rfl, rfl⟩
  rcases (GuardedRuns.always_last hrun hs).once 1 with hnil | ⟨outcome, -, hone⟩
  · rw [hchanges] at hnil
    cases hnil
  · rw [hchanges] at hone
    cases hone

end SessionTurns

end WittyService

import WittyService.QqAdapter

/-! How often a message is answered with passive replies, and how these are numbered. -/
namespace WittyService

open GuardedRuns

namespace Send

def answers (send : Send) (route : Route) (msgId : String) : Bool :=
  send.route = route && send.delivery.passive.map PassiveRef.msgId = some msgId

def inFlight (send : Send) : Bool := send.status = .pending

def counted (send : Send) : Bool :=
  send.status = .finished .delivered || send.status = .finished .uncertain

end Send

namespace QqAdapter

variable {s s' : QqAdapter} {now : Int} {route route' : Route} {message : InboundMessage}
  {call : Nat} {send : Send} {msgId : String}

def counted (s : QqAdapter) (route : Route) (msgId : String) : Nat :=
  s.sends.countP fun send => send.answers route msgId && send.counted

def inFlight (s : QqAdapter) (route : Route) (msgId : String) : Nat :=
  s.sends.countP fun send => send.answers route msgId && send.inFlight

def QuotaKept (s : QqAdapter) : Prop :=
  ∀ route msgId, s.counted route msgId ≤ (passiveReplyRule route.conversationType).2

/-- A message for which a new context is made was not answered yet, and a passive reply finds
a place left beside those that are on their way. -/
def WithinQuota (s : QqAdapter) : QqAction → Prop
  | .frame now message => message.targetId = "" ∨ s.contexts.Repushed now message ∨
      s.counted message.route message.platformEventId +
        s.inFlight message.route message.platformEventId = 0
  | .send now route => ∀ context ∈ (s.contexts.prune now).get? route,
      context.passiveAllowed now = true →
        context.passiveUsed + s.inFlight route context.msgId < context.limit
  | _ => True

instance (s : QqAdapter) : (a : QqAction) → Decidable (s.WithinQuota a)
  | .frame _ _ => inferInstanceAs (Decidable (_ ∨ _ ∨ _))
  | .send _ _ => inferInstanceAs (Decidable (∀ context ∈ _, _ → _))
  | .settle _ _ | .cancel _ => isTrue trivial

structure Charged (s : QqAdapter) : Prop where
  quota : ∀ route msgId, s.counted route msgId + s.inFlight route msgId ≤
    (passiveReplyRule route.conversationType).2
  used : ∀ route context, s.contexts.get? route = some context →
    s.counted route context.msgId ≤ context.passiveUsed
  limit : ∀ route context, s.contexts.get? route = some context →
    context.limit = (passiveReplyRule route.conversationType).2

theorem handleEvent_sends : (s.handleEvent now message).sends = s.sends := by
  unfold handleEvent
  split
  · rfl
  · rfl

theorem startSend_counted : (s.startSend now route).counted = s.counted := by
  funext route' msgId
  simp [counted, startSend, List.countP_append, Send.counted]

theorem startSend_inFlight (route' : Route) (msgId : String) :
    (s.startSend now route).inFlight route' msgId = s.inFlight route' msgId +
      if route = route' ∧ (s.contexts.planDelivery now route).1.passive.map PassiveRef.msgId =
        some msgId then 1 else 0 := by
  simp [inFlight, startSend, List.countP_append, Send.answers, Send.inFlight,
    List.countP_singleton]

section

variable (h : s.pending? call = some send)
include h

theorem pending?_eq_some :
    s.sends[call]? = some send ∧ send.status = .pending := by
  simpa [pending?, Option.filter_eq_some_iff] using h

theorem set_countP (p : Send → Bool) (status : SendStatus) :
    (s.sends.set call { send with status := status }).countP p + (if p send then 1 else 0) =
      s.sends.countP p + if p { send with status := status } then 1 else 0 := by
  obtain ⟨hget, -⟩ := pending?_eq_some h
  obtain ⟨hlt, hsend⟩ := List.getElem?_eq_some_iff.mp hget
  have hpos : (if p send then 1 else 0) ≤ s.sends.countP p := by
    split_ifs with hp
    · exact List.countP_pos_iff.mpr ⟨send, List.mem_of_getElem? hget, hp⟩
    · exact Nat.zero_le _
  rw [List.countP_set hlt, hsend]
  omega

theorem settled_counted {certainty : Certainty} :
    (s.endSend call send certainty).counted route msgId = s.counted route msgId +
      if send.answers route msgId = true ∧ certainty ≠ .rejected then 1 else 0 := by
  have hset := set_countP h (fun send => send.answers route msgId && send.counted)
    (.finished certainty)
  have hwaits := (pending?_eq_some h).2
  cases certainty <;>
    simpa [QqAdapter.counted, endSend, Send.answers, Send.counted, hwaits] using hset

theorem settled_inFlight {status : SendStatus} (hends : status ≠ .pending) :
    (s.sends.set call { send with status := status }).countP
        (fun send => send.answers route msgId && send.inFlight) +
      (if send.answers route msgId then 1 else 0) = s.inFlight route msgId := by
  have hset := set_countP h (fun send => send.answers route msgId && send.inFlight) status
  have hwaits := (pending?_eq_some h).2
  simpa [QqAdapter.inFlight, Send.answers, Send.inFlight, hwaits, hends] using hset

theorem cancelled_counted :
    (s.cancelSend call send).counted route msgId = s.counted route msgId := by
  have hset := set_countP h (fun send => send.answers route msgId && send.counted) .cancelled
  have hwaits := (pending?_eq_some h).2
  simpa [QqAdapter.counted, cancelSend, Send.answers, Send.counted, hwaits] using hset

end

theorem handleEvent_charged (hs : s.Charged) (h : s.WithinQuota (.frame now message)) :
    (s.handleEvent now message).Charged := by
  by_cases htarget : message.targetId = ""
  · rw [handleEvent, if_pos htarget]
    exact hs
  rw [handleEvent, if_neg htarget]
  refine ⟨hs.quota, fun route context hcontext => ?_, fun route context hcontext => ?_⟩
  · obtain hold | ⟨hnew, rfl, rfl⟩ := Contexts.get?_remember hcontext
    · exact hs.used route context hold
    · -- a new context stands for a message without an answer
      have hnone := (h.resolve_left htarget).resolve_left hnew
      exact (Nat.le_add_right _ _).trans hnone.le
  · obtain hold | ⟨-, rfl, rfl⟩ := Contexts.get?_remember hcontext
    · exact hs.limit route context hold
    · rfl

variable {context : ReplyContext} {a : QqAction}

theorem startSend_context (h : (s.startSend now route).contexts.get? route' = some context) :
    ∃ before, s.contexts.get? route' = some before ∧ context.msgId = before.msgId ∧
      context.limit = before.limit ∧ context.passiveUsed = before.passiveUsed := by
  obtain ⟨before, hbefore, rfl | rfl⟩ := Contexts.get?_planDelivery h
  · exact ⟨_, hbefore, rfl, rfl, rfl⟩
  · exact ⟨before, hbefore, rfl, rfl, rfl⟩

theorem startSend_charged (hs : s.Charged) (h : s.WithinQuota (.send now route)) :
    (s.startSend now route).Charged := by
  refine ⟨fun route' msgId => ?_, fun route' context hget => ?_, fun route' context hget => ?_⟩
  · have hquota := hs.quota route' msgId
    rw [startSend_counted, startSend_inFlight]
    obtain ⟨hproactive, -⟩ | ⟨context, hcontext, hallowed, hpassive, -⟩ :=
      Contexts.planDelivery_cases s.contexts now route
    · simpa [hproactive] using hquota
    · rw [hpassive]
      split_ifs with hsame
      · obtain ⟨rfl, hmsgId⟩ := hsame
        obtain rfl : context.msgId = msgId := Option.some.inj hmsgId
        have hplace := h context hcontext hallowed
        have hused := hs.used route context (Contexts.get?_prune hcontext)
        have hlimit := hs.limit route context (Contexts.get?_prune hcontext)
        omega
      · exact hquota
  · obtain ⟨before, hbefore, hmsgId, -, hused⟩ := startSend_context hget
    rw [startSend_counted, hmsgId, hused]
    exact hs.used route' before hbefore
  · obtain ⟨before, hbefore, -, hlimit, -⟩ := startSend_context hget
    exact hlimit.trans (hs.limit route' before hbefore)

/-- A call that counts is charged to the context that its route has when it ends, which may
stand for another message by then. -/
theorem endSend_context {certainty : Certainty}
    (h : (s.endSend call send certainty).contexts.get? route = some context) :
    ∃ before, s.contexts.get? route = some before ∧ context.msgId = before.msgId ∧
      context.limit = before.limit ∧ context.nextSeq = before.nextSeq ∧
        context.passiveUsed = before.passiveUsed +
          if route = send.route ∧ certainty ≠ .rejected ∧ send.delivery.passive.isSome then 1
          else 0 := by
  simp only [endSend, Contexts.consumePassive] at h
  split at h
  · next hcounts =>
    obtain ⟨before, hbefore, rfl⟩ := OrderedDict.of_get?_adjust h
    refine ⟨before, hbefore, ?_⟩
    have hcounts' : certainty ≠ .rejected ∧ send.delivery.passive.isSome := by
      simpa using hcounts
    by_cases hroute : route = send.route
    · simp [hroute, hcounts', ReplyContext.charge]
    · simp [hroute]
  · next hfree =>
    refine ⟨context, h, rfl, rfl, rfl, ?_⟩
    rw [if_neg (by simpa using fun _ => hfree)]
    rfl

theorem answers_passive (h : send.answers route msgId = true) :
    route = send.route ∧ send.delivery.passive.isSome := by
  simp only [Send.answers, Bool.and_eq_true, decide_eq_true_eq] at h
  obtain ⟨ref, href, -⟩ := Option.map_eq_some_iff.mp h.2
  exact ⟨h.1.symm, by rw [href]; rfl⟩

theorem endSend_charged (hs : s.Charged) (h : s.pending? call = some send)
    (certainty : Certainty) : (s.endSend call send certainty).Charged := by
  refine ⟨fun route msgId => ?_, fun route context hcontext => ?_, fun route context hcontext => ?_⟩
  · have hquota := hs.quota route msgId
    have hends : SendStatus.finished certainty ≠ .pending := nofun
    have hflight : (s.endSend call send certainty).inFlight route msgId +
        (if send.answers route msgId then 1 else 0) = s.inFlight route msgId :=
      settled_inFlight h hends
    rw [settled_counted h]
    split_ifs at hflight ⊢ with hcounts
    · omega
    · exact absurd hcounts.1 (by assumption)
    · omega
    · omega
  · obtain ⟨before, hbefore, hmsgId, -, -, hused⟩ := endSend_context hcontext
    have hold := hs.used route before hbefore
    rw [settled_counted h, hmsgId, hused]
    split_ifs with hcounts hcharged
    · omega
    · obtain ⟨hroute, hpassive⟩ := answers_passive hcounts.1
      exact absurd ⟨hroute, hcounts.2, hpassive⟩ hcharged
    · omega
    · omega
  · obtain ⟨before, hbefore, -, hlimit, -⟩ := endSend_context hcontext
    exact hlimit.trans (hs.limit route before hbefore)

theorem cancelSend_charged (hs : s.Charged) (h : s.pending? call = some send) :
    (s.cancelSend call send).Charged := by
  have hends : SendStatus.cancelled ≠ .pending := nofun
  refine ⟨fun route msgId => ?_, fun route context hcontext => ?_, hs.limit⟩
  · have hquota := hs.quota route msgId
    have hflight : (s.cancelSend call send).inFlight route msgId +
        (if send.answers route msgId then 1 else 0) = s.inFlight route msgId :=
      settled_inFlight h hends
    rw [cancelled_counted h]
    omega
  · rw [cancelled_counted h]
    exact hs.used route context hcontext

theorem step_charged (hs : s.Charged) (hg : s.WithinQuota a)
    (h : qqStep s a = some s') : s'.Charged := by
  cases a with
  | frame now message =>
    cases h
    exact handleEvent_charged hs hg
  | send now route =>
    cases h
    exact startSend_charged hs hg
  | settle call certainty =>
    obtain ⟨send, hsend, rfl⟩ := Option.map_eq_some_iff.mp h
    exact endSend_charged hs hsend certainty
  | cancel call =>
    obtain ⟨send, hsend, rfl⟩ := Option.map_eq_some_iff.mp h
    exact cancelSend_charged hs hsend

theorem Charged.quotaKept (hs : s.Charged) : s.QuotaKept :=
  fun route msgId => (Nat.le_add_right _ _).trans (hs.quota route msgId)

theorem fresh_charged : fresh.Charged :=
  ⟨fun _ _ => Nat.zero_le _, fun _ _ _ => Nat.zero_le _, nofun⟩

/-- Along every run whose steps meet `WithinQuota`, no message has more passive replies that
were or may have been accepted than the rule of its conversation allows. -/
theorem quota_kept (as : List QqAction) (h : Guarded qqStep WithinQuota fresh as) :
    Always qqStep QuotaKept fresh as :=
  always_mono (fun _ hs => hs.quotaKept)
    (always_of_guarded (fun _ _ _ hs hg hstep => step_charged hs hg hstep) fresh_charged h)

def aliceRoute : Route := ⟨"instance", CONVERSATION_TYPE_DIRECT, "alice"⟩

def aliceMessage (msgId : String) : InboundMessage := ⟨msgId, aliceRoute, 0, "alice"⟩

/-- A call of `send_text` that is delivered before the next action. -/
def delivered (call : Nat) : List QqAction := [.send 0 aliceRoute, .settle call .delivered]

/-- A message is answered four times in turn, and what is sent after that is proactive. -/
theorem five_sends_kept : Always qqStep QuotaKept fresh
    (.frame 0 (aliceMessage "1") :: (List.range 5).flatMap delivered) :=
  quota_kept _ (by decide +kernel)

def crossingSends : List QqAction :=
  .frame 0 (aliceMessage "1") :: (List.range 3).flatMap delivered ++
    [.send 0 aliceRoute, .send 0 aliceRoute, .settle 3 .delivered, .settle 4 .delivered]

theorem quota_exceeded : ¬ ∀ as, Always qqStep QuotaKept fresh as := by
  intro h
  have hcount : (run qqStep fresh crossingSends).map (fun s => s.counted aliceRoute "1") =
      some 5 := by
    decide +kernel
  obtain ⟨s, hrun, hfive⟩ := Option.map_eq_some_iff.mp hcount
  have hquota := always_last (h crossingSends) hrun aliceRoute "1"
  rw [hfive] at hquota
  exact absurd hquota (by decide)

/-! Each passive reply to a message has a number of its own. -/

def refs (s : QqAdapter) : List PassiveRef := s.sends.filterMap (·.delivery.passive)

def RefsDistinct (s : QqAdapter) : Prop := s.refs.Nodup

/-- A message for which a new context is made was never answered with a passive reply, and no
other route has a context for it. -/
def FreshMessages (s : QqAdapter) : QqAction → Prop
  | .frame now message => message.targetId = "" ∨ s.contexts.Repushed now message ∨
      (∀ ref ∈ s.refs, ref.msgId ≠ message.platformEventId) ∧
        ∀ entry ∈ s.contexts.entries, entry.1 ≠ message.route →
          entry.2.msgId ≠ message.platformEventId
  | _ => True

instance (s : QqAdapter) : (a : QqAction) → Decidable (s.FreshMessages a)
  | .frame _ _ => inferInstanceAs (Decidable (_ ∨ _ ∨ _))
  | .send _ _ | .settle _ _ | .cancel _ => isTrue trivial

structure Numbered (s : QqAdapter) : Prop where
  distinct : s.RefsDistinct
  below : ∀ route context, s.contexts.get? route = some context →
    ∀ ref ∈ s.refs, ref.msgId = context.msgId → ref.msgSeq < context.nextSeq
  apart : ∀ route route' context context', s.contexts.get? route = some context →
    s.contexts.get? route' = some context' → context.msgId = context'.msgId → route = route'

theorem handleEvent_refs : (s.handleEvent now message).refs = s.refs := by
  rw [refs, handleEvent_sends]
  rfl

theorem startSend_refs : (s.startSend now route).refs =
    s.refs ++ (s.contexts.planDelivery now route).1.passive.toList := by
  simp only [refs, startSend, List.filterMap_append, List.filterMap_cons, List.filterMap_nil]
  cases (s.contexts.planDelivery now route).1.passive with
  | none | some ref => rfl

theorem set_refs (h : s.pending? call = some send) (status : SendStatus) :
    (s.sends.set call { send with status := status }).filterMap (·.delivery.passive) =
      s.refs := by
  obtain ⟨hlt, hsend⟩ := List.getElem?_eq_some_iff.mp (pending?_eq_some h).1
  have hsame : (s.sends.set call { send with status := status }).map Send.delivery =
      s.sends.map Send.delivery := by
    have hlt' : call < (s.sends.map Send.delivery).length := by simpa using hlt
    have hdelivery : (s.sends.map Send.delivery)[call] = send.delivery := by
      rw [List.getElem_map, hsend]
    rw [List.map_set, ← hdelivery, List.set_getElem_self]
  have hmap (sends : List Send) : sends.filterMap (·.delivery.passive) =
      (sends.map Send.delivery).filterMap Delivery.passive := by
    rw [List.filterMap_map]
    rfl
  rw [refs, hmap, hmap, hsame]

theorem Numbered.kept (hs : s.Numbered) (hrefs : s'.refs = s.refs)
    (hcontexts : ∀ route context, s'.contexts.get? route = some context →
      ∃ before, s.contexts.get? route = some before ∧ context.msgId = before.msgId ∧
        before.nextSeq ≤ context.nextSeq) : s'.Numbered := by
  refine ⟨?_, fun route context hcontext ref href hmsgId => ?_,
    fun route route' context context' hcontext hcontext' hmsgId => ?_⟩
  · rw [RefsDistinct, hrefs]
    exact hs.distinct
  · obtain ⟨before, hbefore, hsame, hseq⟩ := hcontexts route context hcontext
    rw [hrefs] at href
    exact (hs.below route before hbefore ref href (hmsgId.trans hsame)).trans_le hseq
  · obtain ⟨before, hbefore, hsame, -⟩ := hcontexts route context hcontext
    obtain ⟨before', hbefore', hsame', -⟩ := hcontexts route' context' hcontext'
    rw [hsame, hsame'] at hmsgId
    exact hs.apart route route' before before' hbefore hbefore' hmsgId

theorem handleEvent_numbered (hs : s.Numbered) (h : s.FreshMessages (.frame now message)) :
    (s.handleEvent now message).Numbered := by
  by_cases htarget : message.targetId = ""
  · rw [handleEvent, if_pos htarget]
    exact hs
  have hrefs : (s.handleEvent now message).refs = s.refs := handleEvent_refs
  rw [handleEvent, if_neg htarget] at hrefs ⊢
  have hfresh (hnew : ¬ s.contexts.Repushed now message) :=
    (h.resolve_left htarget).resolve_left hnew
  have hother {route : Route} {context : ReplyContext} (hroute : route ≠ message.route)
      (hnew : ¬ s.contexts.Repushed now message) (hget : s.contexts.get? route = some context) :
      context.msgId ≠ message.platformEventId :=
    (hfresh hnew).2 (route, context) (OrderedDict.get?_eq_some_iff.mp hget) hroute
  refine ⟨?_, fun route context hcontext ref href hmsgId => ?_,
    fun route route' context context' hcontext hcontext' hmsgId => ?_⟩
  · rw [RefsDistinct, hrefs]
    exact hs.distinct
  · rw [hrefs] at href
    obtain hold | ⟨hnew, rfl, rfl⟩ := Contexts.get?_remember hcontext
    · exact hs.below route context hold ref href hmsgId
    · exact absurd hmsgId ((hfresh hnew).1 ref href)
  · obtain hold | ⟨hnew, rfl, rfl⟩ := Contexts.get?_remember hcontext
    · obtain hold' | ⟨hnew, rfl, rfl⟩ := Contexts.get?_remember hcontext'
      · exact hs.apart route route' context context' hold hold' hmsgId
      · by_contra hroute
        exact hother hroute hnew hold hmsgId
    · obtain hold' | ⟨-, rfl, -⟩ := Contexts.get?_remember hcontext'
      · by_contra hroute
        exact hother (Ne.symm hroute) hnew hold' hmsgId.symm
      · rfl

theorem startSend_numbered (hs : s.Numbered) : (s.startSend now route).Numbered := by
  obtain ⟨hproactive, hcontexts⟩ | ⟨context, hcontext, -, hpassive, hcontexts⟩ :=
    Contexts.planDelivery_cases s.contexts now route
  · refine hs.kept ?_ fun route' context' hget => ?_
    · rw [startSend_refs, hproactive]
      exact List.append_nil _
    · have hpruned : (s.contexts.planDelivery now route).2.get? route' = some context' := hget
      rw [hcontexts] at hpruned
      exact ⟨context', Contexts.get?_prune hpruned, rfl, Nat.le_refl _⟩
  have hold := Contexts.get?_prune hcontext
  have hgrown {route' : Route} {context' : ReplyContext}
      (hget : (s.startSend now route).contexts.get? route' = some context') :
      ∃ before, s.contexts.get? route' = some before ∧ context'.msgId = before.msgId ∧
        context'.nextSeq = before.nextSeq + if route' = route then 1 else 0 := by
    have hplanned : (s.contexts.planDelivery now route).2.get? route' = some context' := hget
    rw [hcontexts] at hplanned
    obtain ⟨before, hbefore, rfl⟩ := OrderedDict.of_get?_adjust hplanned
    refine ⟨before, Contexts.get?_prune hbefore, ?_⟩
    split_ifs
    · exact ⟨rfl, rfl⟩
    · exact ⟨rfl, rfl⟩
  have hrefs : (s.startSend now route).refs = s.refs ++ [⟨context.msgId, context.nextSeq⟩] := by
    rw [startSend_refs, hpassive]
    rfl
  refine ⟨?_, fun route' context' hget ref href hmsgId => ?_,
    fun route' route'' context' context'' hget hget' hmsgId => ?_⟩
  · rw [RefsDistinct, hrefs]
    refine List.Nodup.append hs.distinct (List.nodup_singleton _) fun ref href hnew => ?_
    obtain rfl := List.mem_singleton.mp hnew
    exact Nat.lt_irrefl _ (hs.below route context hold _ href rfl)
  · obtain ⟨before, hbefore, hsame, hseq⟩ := hgrown hget
    rw [hrefs, List.mem_append, List.mem_singleton] at href
    obtain href | rfl := href
    · have hlt := hs.below route' before hbefore ref href (hmsgId.trans hsame)
      omega
    · -- the new reply: its message has no other context
      obtain rfl := hs.apart route route' context before hold hbefore (hmsgId.trans hsame)
      rw [hold] at hbefore
      cases hbefore
      simp [hseq]
  · obtain ⟨before, hbefore, hsame, -⟩ := hgrown hget
    obtain ⟨before', hbefore', hsame', -⟩ := hgrown hget'
    rw [hsame, hsame'] at hmsgId
    exact hs.apart route' route'' before before' hbefore hbefore' hmsgId

theorem step_numbered (hs : s.Numbered) (hg : s.FreshMessages a)
    (h : qqStep s a = some s') : s'.Numbered := by
  cases a with
  | frame now message =>
    cases h
    exact handleEvent_numbered hs hg
  | send now route =>
    cases h
    exact startSend_numbered hs
  | settle call certainty =>
    obtain ⟨send, hsend, rfl⟩ := Option.map_eq_some_iff.mp h
    refine hs.kept (set_refs hsend _) fun route context hcontext => ?_
    obtain ⟨before, hbefore, hmsgId, -, hseq, -⟩ := endSend_context hcontext
    exact ⟨before, hbefore, hmsgId, hseq.ge⟩
  | cancel call =>
    obtain ⟨send, hsend, rfl⟩ := Option.map_eq_some_iff.mp h
    exact hs.kept (set_refs hsend _) fun route context hcontext =>
      ⟨context, hcontext, rfl, Nat.le_refl _⟩

theorem fresh_numbered : fresh.Numbered := ⟨List.nodup_nil, nofun, nofun⟩

/-- Along every run whose steps meet `FreshMessages`, no two passive replies have the same
`msg_id` and `msg_seq`. -/
theorem refs_distinct (as : List QqAction) (h : Guarded qqStep FreshMessages fresh as) :
    Always qqStep RefsDistinct fresh as :=
  always_mono (fun _ hs => hs.distinct)
    (always_of_guarded (fun _ _ _ hs hg hstep => step_numbered hs hg hstep) fresh_numbered h)

/-- The message is pushed again after its first answer, then another one arrives. -/
theorem repushed_distinct : Always qqStep RefsDistinct fresh
    ([.frame 0 (aliceMessage "1")] ++ delivered 0 ++ [.frame 0 (aliceMessage "1")] ++
      delivered 1 ++ [.frame 0 (aliceMessage "2")] ++ delivered 2) :=
  refs_distinct _ (by decide +kernel)

def laterRepush : List QqAction :=
  [.frame 0 (aliceMessage "1")] ++ delivered 0 ++ [.frame 0 (aliceMessage "2")] ++
    [.frame 0 (aliceMessage "1")] ++ delivered 1

theorem refs_repeated : ¬ ∀ as, Always qqStep RefsDistinct fresh as := by
  intro h
  have hrefs : (run qqStep fresh laterRepush).map refs = some [⟨"1", 1⟩, ⟨"1", 1⟩] := by
    decide +kernel
  obtain ⟨s, hrun, htwice⟩ := Option.map_eq_some_iff.mp hrefs
  have hdistinct := always_last (h laterRepush) hrun
  rw [RefsDistinct, htwice] at hdistinct
  exact absurd hdistinct (by decide)

end QqAdapter

end WittyService

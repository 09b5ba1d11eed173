import WittyService.OutboundRequests

/-! The verdicts on outbound messages, for both adapters. -/
namespace WittyService

open GuardedRuns

/-- A call that has ended has returned, unless its caller has cancelled it. Its verdict is
`delivered` only after the platform has accepted this very request, and `rejected` only after it
has refused it. -/
def WecomSend.Honest (send : WecomSend) : Prop :=
  match send.phase with
  | .ended (.returned result) =>
    (result.certainty = .delivered → ∃ errcode ∈ send.answers, errcode.accepted = true) ∧
      (result.certainty = .rejected → ∃ errcode ∈ send.answers, errcode.refuses)
  | .ended .cancelled => False
  | .ended .cancelledByCaller | .writing | .waiting => True

/-- A call that has ended has returned, unless its caller has cancelled it. Its verdict is
`delivered` only after the platform has accepted the message, and `rejected` only where it has
refused it each time it was sent, if at all. -/
def QqRequest.Honest (request : QqRequest) : Prop :=
  match request.phase with
  | .ended (.returned result) =>
    (result.certainty = .delivered → ∃ answer ∈ request.answers, answer.accepts) ∧
      (result.certainty = .rejected → ∀ answer ∈ request.answers, answer.refuses)
  | .ended .cancelled => False
  | .ended .cancelledByCaller | .authorizing _ | .posting _ => True

/-- No call is made in the task of an incoming message when the adapter disconnects, and no call
goes on with a future that a disconnect has cancelled. -/
def WecomAdapter.Undisturbed (s : WecomAdapter) : WecomAction → Prop
  | .resumes k => ∀ send ∈ s.inPhase k .waiting, send.future ≠ .cancelled
  | .disconnected => ∀ send ∈ s.sends, send.inboundTask = true → send.isEnded = true
  | _ => True

def QqClient.Undisturbed (s : QqClient) : QqRequestAction → Prop
  | .disconnect => ∀ request ∈ s.requests, request.inboundTask = true → request.isEnded = true
  | _ => True

namespace WecomSend

variable {send : WecomSend}

/-- The future was settled by an answer to this request, and so is the verdict. -/
structure Sound (send : WecomSend) : Prop where
  result : ∀ ref, send.future = .result ref → ∃ errcode ∈ send.answers, errcode.accepted = true
  protocolError : ∀ code message, send.future = .protocolError code message →
    ∃ errcode ∈ send.answers, errcode.accepted = false ∧ errcode.code = code
  verdict : ∀ result, send.phase = .ended (.returned result) →
    (result.certainty = .delivered → ∃ errcode ∈ send.answers, errcode.accepted = true) ∧
      (result.certainty = .rejected → ∃ errcode ∈ send.answers, errcode.refuses)

section

variable (h : send.Sound)
include h

theorem Sound.honest_iff : send.Honest ↔ send.phase ≠ .ended .cancelled := by
  unfold Honest
  split
  · rename_i result hphase
    refine iff_of_true (h.verdict result hphase) ?_
    rw [hphase]
    exact nofun
  · rename_i hphase
    exact iff_of_false id fun hne => hne hphase
  all_goals
    rename_i hphase
    refine iff_of_true trivial ?_
    rw [hphase]
    exact nofun

variable {sendEnd : SendEnd} {future : AckFuture}

theorem Sound.finish (hverdict : ∀ result, sendEnd = .returned result →
      (result.certainty = .delivered → ∃ errcode ∈ send.answers, errcode.accepted = true) ∧
        (result.certainty = .rejected → ∃ errcode ∈ send.answers, errcode.refuses)) :
    (send.finish sendEnd).Sound where
  result := h.result
  protocolError := h.protocolError
  verdict result hphase := by
    cases hphase
    exact hverdict result rfl

theorem Sound.uncertain (errorCode : String) :
    (send.finish (.returned (.uncertainWith errorCode))).Sound := by
  refine h.finish fun result heq => ?_
  cases heq
  exact ⟨nofun, nofun⟩

theorem Sound.settle (hresult : ∀ ref, future = .result ref →
      ∃ errcode ∈ send.answers, errcode.accepted = true)
    (herror : ∀ code message, future = .protocolError code message →
      ∃ errcode ∈ send.answers, errcode.accepted = false ∧ errcode.code = code) :
    (send.settle future).Sound := by
  unfold WecomSend.settle
  split_ifs
  · exact ⟨hresult, herror, h.verdict⟩
  · exact h

theorem Sound.drop (hfuture : future = .connectionError ∨ future = .cancelled) :
    Sound { send.settle future with pending := false } := by
  obtain ⟨hresult, herror, hverdict⟩ : (send.settle future).Sound := by
    obtain rfl | rfl := hfuture <;> exact h.settle nofun nofun
  exact ⟨hresult, herror, hverdict⟩

variable (errcode : Errcode)

theorem Sound.hear :
    Sound { send with answers := send.answers ++ [errcode] } := by
  have hkept {P : Errcode → Prop} : (∃ e ∈ send.answers, P e) →
      ∃ e ∈ send.answers ++ [errcode], P e := by
    rintro ⟨e, he, hp⟩
    exact ⟨e, List.mem_append_left _ he, hp⟩
  refine ⟨fun ref hfuture => hkept (h.result ref hfuture), fun code message hfuture =>
    hkept (h.protocolError code message hfuture), fun result hphase => ?_⟩
  obtain ⟨hdelivered, hrejected⟩ := h.verdict result hphase
  exact ⟨fun hd => hkept (hdelivered hd), fun hr => hkept (hrejected hr)⟩

theorem Sound.settleAck (ref : String)
    (message : Option String) : (send.settleAck errcode ref message).Sound := by
  have hlast : errcode ∈ send.answers ++ [errcode] :=
    List.mem_append_right _ (List.mem_singleton_self errcode)
  unfold WecomSend.settleAck
  split_ifs with haccepted
  · exact (h.hear errcode).settle (fun _ _ => ⟨errcode, hlast, haccepted⟩) nofun
  · refine (h.hear errcode).settle nofun fun code text heq => ?_
    cases heq
    exact ⟨errcode, hlast, Bool.eq_false_iff.mpr haccepted, rfl⟩

theorem Sound.resume
    (hend : WecomSend.outcome send.future = some sendEnd) : (send.finish sendEnd).Sound := by
  refine h.finish fun result heq => ?_
  cases hfuture : send.future with
  | unsettled =>
    rw [hfuture] at hend
    cases hend
  | result ref =>
    rw [hfuture] at hend
    cases hend
    cases heq
    exact ⟨fun _ => h.result ref hfuture, nofun⟩
  | protocolError code message =>
    obtain ⟨errcode, hmem, hfailed, rfl⟩ := h.protocolError code message hfuture
    rw [hfuture] at hend
    unfold outcome at hend
    dsimp only at hend
    split_ifs at hend with hcode
    · cases hend
      cases heq
      exact ⟨nofun, fun _ => ⟨errcode, hmem, hfailed, hcode⟩⟩
    · cases hend
      cases heq
      exact ⟨nofun, nofun⟩
  | connectionError =>
    rw [hfuture] at hend
    cases hend
    cases heq
    exact ⟨nofun, nofun⟩
  | cancelled =>
    rw [hfuture] at hend
    cases hend
    cases heq

end

end WecomSend

theorem forall_mem_set {α : Type} {P : α → Prop} {table : List α} {k : Nat} {old new : α}
    (hold : table[k]? = some old) (h : ∀ entry ∈ table, P entry) :
    (∀ entry ∈ table.set k new, P entry) ↔ P new := by
  obtain ⟨hlt, -⟩ := List.getElem?_eq_some_iff.mp hold
  constructor
  · intro hset
    exact hset new (List.mem_set hlt new)
  · intro hnew entry hentry
    obtain hentry | rfl := List.mem_or_eq_of_mem_set hentry
    · exact h entry hentry
    · exact hnew

theorem forall_mem_concat {α : Type} {P : α → Prop} {table : List α} {new : α}
    (h : ∀ entry ∈ table, P entry) : (∀ entry ∈ table ++ [new], P entry) ↔ P new := by
  rw [List.forall_mem_append, List.forall_mem_singleton]
  exact and_iff_right h

namespace WecomAdapter

variable {s s' : WecomAdapter} {k : Nat} {send : WecomSend}

/-- What holds of every call in every run, and what an honest adapter is besides. -/
def Sound (s : WecomAdapter) : Prop := ∀ send ∈ s.sends, send.Sound

def NoneCancelled (s : WecomAdapter) : Prop := ∀ send ∈ s.sends, send.phase ≠ .ended .cancelled

theorem Sound.honest_iff (hs : s.Sound) :
    (∀ send ∈ s.sends, send.Honest) ↔ s.NoneCancelled :=
  forall₂_congr fun send hsend => (hs send hsend).honest_iff

theorem inPhase_eq {phase : WecomPhase} (h : s.inPhase k phase = some send) :
    s.sends[k]? = some send ∧ send.phase = phase := by
  obtain ⟨hsend, hphase⟩ := Option.filter_eq_some_iff.mp h
  exact ⟨hsend, of_decide_eq_true hphase⟩

theorem setSend_sound (hs : s.Sound) (hnone : s.NoneCancelled) (hsend : s.sends[k]? = some send)
    {new : WecomSend} (hnew : new.Sound) :
    (s.setSend k new).Sound ∧
      ((s.setSend k new).NoneCancelled ↔ new.phase ≠ .ended .cancelled) :=
  ⟨(forall_mem_set hsend hs).mpr hnew, forall_mem_set hsend hnone⟩

theorem mapSends_sound {f : WecomSend → WecomSend} (hs : s.Sound) (hnone : s.NoneCancelled)
    (hf : ∀ send, send.Sound → (f send).Sound)
    (hphase : ∀ send ∈ s.sends, (f send).phase = send.phase) :
    (s.mapSends f).Sound ∧ (s.mapSends f).NoneCancelled := by
  constructor
  · intro new hnew
    obtain ⟨send, hsend, rfl⟩ := List.mem_map.mp hnew
    exact hf send (hs send hsend)
  · intro new hnew
    obtain ⟨send, hsend, rfl⟩ := List.mem_map.mp hnew
    rw [hphase send hsend]
    exact hnone send hsend

theorem settle_phase (future : AckFuture) : (send.settle future).phase = send.phase := by
  unfold WecomSend.settle
  split_ifs <;> rfl

theorem dispatchFrame_sound (hs : s.Sound) (hnone : s.NoneCancelled) (frame : WecomFrame) :
    (s.dispatchFrame frame).Sound ∧ (s.dispatchFrame frame).NoneCancelled := by
  cases frame with
  | ack reqId errcode ref message =>
    refine mapSends_sound hs hnone (fun send hsend => ?_) fun send _ => ?_
    · split_ifs
      · exact hsend.settleAck errcode ref message
      · exact hsend
    · split_ifs
      · unfold WecomSend.settleAck
        split_ifs <;> exact settle_phase _
      · rfl
  | takenOver =>
    exact mapSends_sound hs hnone (fun send hsend => hsend.drop (.inl rfl))
      fun send _ => settle_phase _
  | other => exact ⟨hs, hnone⟩

theorem cancelAll_sound (hs : s.Sound) (hnone : s.NoneCancelled) :
    s.cancelAll.Sound ∧ (s.cancelAll.NoneCancelled ↔ s.Undisturbed .disconnected) := by
  constructor
  · intro new hnew
    obtain ⟨send, hsend, rfl⟩ := List.mem_map.mp hnew
    split_ifs
    · exact (hs send hsend).finish nofun
    · exact (hs send hsend).drop (.inr rfl)
  · constructor
    · intro h send hsend hinbound
      by_contra hunfinished
      have hended := h _ (List.mem_map.mpr ⟨send, hsend, rfl⟩)
      rw [if_pos ⟨hinbound, Bool.eq_false_iff.mpr hunfinished⟩] at hended
      exact hended rfl
    · intro h new hnew
      obtain ⟨send, hsend, rfl⟩ := List.mem_map.mp hnew
      split_ifs with hcancelled
      · rw [h send hsend hcancelled.1] at hcancelled
        cases hcancelled.2
      · exact fun hphase => hnone send hsend ((settle_phase _).symm.trans hphase)

end WecomAdapter

open WecomAdapter in
theorem wecomStep_sound {s s' : WecomAdapter} {a : WecomAction} (hs : s.Sound)
    (hnone : s.NoneCancelled) (h : wecomStep s a = some s') :
    s'.Sound ∧ (s'.NoneCancelled ↔ s.Undisturbed a) := by
  -- but for a resumption and a disconnect there is nothing to require
  have hrest (hguard : s.Undisturbed a) (hkept : s'.Sound ∧ s'.NoneCancelled) :
      s'.Sound ∧ (s'.NoneCancelled ↔ s.Undisturbed a) :=
    ⟨hkept.1, iff_of_true hkept.2 hguard⟩
  have hset {k : Nat} {send new : WecomSend} (hguard : s.Undisturbed a)
      (hsend : s.sends[k]? = some send) (heq : s' = s.setSend k new) (hnew : new.Sound)
      (hphase : new.phase ≠ .ended .cancelled) :
      s'.Sound ∧ (s'.NoneCancelled ↔ s.Undisturbed a) := by
    obtain ⟨hsound, hiff⟩ := setSend_sound hs hnone hsend hnew
    rw [heq] at hrest ⊢
    exact hrest hguard ⟨hsound, hiff.mpr hphase⟩
  cases a with
  | send reqId inboundTask =>
    unfold wecomStep at h
    dsimp only at h
    split_ifs at h
    cases h
    have hnew : WecomSend.Sound ⟨reqId, inboundTask, s.transport, .unsettled,
        if s.transport then .writing
        else .ended (.returned (.uncertainWith CHANNEL_DELIVERY_UNCERTAIN)), []⟩ := by
      refine ⟨nofun, nofun, fun result hphase => ?_⟩
      split_ifs at hphase
      cases hphase
      exact ⟨nofun, nofun⟩
    refine hrest trivial ⟨(forall_mem_concat hs).mpr hnew, (forall_mem_concat hnone).mpr ?_⟩
    split_ifs <;> exact nofun
  | written k ok =>
    obtain ⟨send, hsend, rfl⟩ := Option.map_eq_some_iff.mp h
    obtain ⟨hsend, hphase⟩ := inPhase_eq hsend
    have hsound := hs send (List.mem_of_getElem? hsend)
    cases ok with
    | true => exact hset trivial hsend rfl ⟨hsound.result, hsound.protocolError, nofun⟩ nofun
    | false => exact hset trivial hsend rfl (hsound.uncertain _) nofun
  | resumes k =>
    unfold wecomStep at h
    dsimp only at h
    split at h
    · rename_i send hwaiting
      obtain ⟨sendEnd, hend, rfl⟩ := Option.map_eq_some_iff.mp h
      obtain ⟨hsend, -⟩ := inPhase_eq hwaiting
      have hsound := hs send (List.mem_of_getElem? hsend)
      obtain ⟨hkept, hiff⟩ := setSend_sound hs hnone hsend (hsound.resume hend)
      refine ⟨hkept, hiff.trans ?_⟩
      simp only [Undisturbed, hwaiting, Option.mem_some_iff, forall_eq']
      refine not_congr ?_
      constructor
      · intro hphase
        cases hphase
        cases hfuture : send.future with
        | protocolError code message =>
          rw [hfuture] at hend
          unfold WecomSend.outcome at hend
          dsimp only at hend
          split_ifs at hend <;> cases hend
        | cancelled => rfl
        | unsettled | result | connectionError =>
          rw [hfuture] at hend
          cases hend
      · intro hfuture
        rw [hfuture] at hend
        cases hend
        rfl
    · cases h
  | timesOut k =>
    obtain ⟨send, hsend, rfl⟩ := Option.map_eq_some_iff.mp h
    obtain ⟨hsend, -⟩ := inPhase_eq hsend
    have hsound := hs send (List.mem_of_getElem? hsend)
    exact hset trivial hsend rfl (hsound.uncertain _) nofun
  | callerCancels k =>
    unfold wecomStep at h
    dsimp only at h
    split at h
    · rename_i send hsend
      split_ifs at h
      cases h
      have hsound := hs send (List.mem_of_getElem? hsend)
      exact hset trivial hsend rfl (hsound.finish nofun) nofun
    · cases h
  | frame frame =>
    unfold wecomStep at h
    dsimp only at h
    split_ifs at h
    cases h
    exact hrest trivial (dispatchFrame_sound hs hnone frame)
  | heartbeatMissed | subscribed ok =>
    unfold wecomStep at h
    dsimp only at h
    split_ifs at h <;> cases h <;> exact hrest trivial ⟨hs, hnone⟩
  | disconnected =>
    cases h
    exact cancelAll_sound hs hnone
  | connect =>
    unfold wecomStep at h
    dsimp only at h
    split_ifs at h
    cases h
    exact hrest trivial ⟨hs, hnone⟩
  | receiverEnds | heartbeatAnswered | teardown | disconnect =>
    cases h
    exact hrest trivial ⟨hs, hnone⟩

namespace QqRequest

variable {request : QqRequest}

/-- While a call is under way the platform has refused what was sent, if anything. -/
structure Sound (request : QqRequest) : Prop where
  refused : request.isEnded = false → ∀ answer ∈ request.answers, answer.refuses
  verdict : ∀ result, request.phase = .ended (.returned result) →
    (result.certainty = .delivered → ∃ answer ∈ request.answers, answer.accepts) ∧
      (result.certainty = .rejected → ∀ answer ∈ request.answers, answer.refuses)

theorem Sound.honest_iff (h : request.Sound) :
    request.Honest ↔ request.phase ≠ .ended .cancelled := by
  unfold Honest
  split
  · rename_i result hphase
    refine iff_of_true (h.verdict result hphase) ?_
    rw [hphase]
    exact nofun
  · rename_i hphase
    exact iff_of_false id fun hne => hne hphase
  all_goals
    rename_i hphase
    refine iff_of_true trivial ?_
    rw [hphase]
    exact nofun

theorem Sound.finish (h : request.Sound) (hunfinished : request.isEnded = false) {sendEnd : SendEnd}
    (hdelivered : ∀ result, sendEnd = .returned result → result.certainty ≠ .delivered) :
    (request.finish sendEnd).Sound where
  refused hended := nomatch hended
  verdict result hphase := by
    cases hphase
    exact ⟨fun heq => absurd heq (hdelivered result rfl), fun _ => h.refused hunfinished⟩

theorem translateHttpStatus_certainty (status : Nat) :
    (translateHttpStatus status).certainty ≠ .delivered ∧
      ((translateHttpStatus status).certainty = .rejected → status ∈ [401, 403, 404, 429]) := by
  unfold translateHttpStatus
  split_ifs with h401 hrefused
  · exact ⟨nofun, fun _ => by simp [h401]⟩
  · exact ⟨nofun, fun _ => List.mem_cons_of_mem _ hrefused⟩
  · exact ⟨nofun, nofun⟩
  · exact ⟨nofun, nofun⟩

variable {answer : HttpAnswer}

theorem readAnswer_error {result : DeliveryResult} (h : readAnswer answer = .error result) :
    result.certainty ≠ .delivered ∧ (result.certainty = .rejected → answer.refuses) := by
  cases answer with
  | response status body =>
    unfold readAnswer at h
    dsimp only at h
    split_ifs at h
    · cases h
      exact translateHttpStatus_certainty status
    · cases body <;> cases h <;> exact ⟨nofun, nofun⟩
  | httpError | otherError =>
    cases h
    exact ⟨nofun, nofun⟩

theorem readAnswer_ok {value : Option String}
    (h : readAnswer answer = .ok value) : answer.accepts := by
  cases answer with
  | response status body =>
    unfold readAnswer at h
    dsimp only at h
    split_ifs at h with hstatus
    cases body with
    | object value => exact not_not.mp hstatus
    | otherJson | notJson => cases h
  | httpError | otherError => cases h

theorem Sound.tokenAnswered (h : request.Sound) (hunfinished : request.isEnded = false)
    (retried : Bool) (answer : HttpAnswer) :
    (request.tokenAnswered retried answer).Sound ∧
      (request.tokenAnswered retried answer).phase ≠ .ended .cancelled := by
  unfold QqRequest.tokenAnswered
  cases hread : readAnswer answer with
  | ok value =>
    cases value with
    | some token => exact ⟨⟨fun _ => h.refused hunfinished, nofun⟩, nofun⟩
    | none =>
      refine ⟨h.finish hunfinished fun result heq => ?_, nofun⟩
      cases heq
      exact nofun
  | error result =>
    refine ⟨h.finish hunfinished fun other heq => ?_, nofun⟩
    cases heq
    exact (readAnswer_error hread).1

theorem unauthorized_refuses (h : answer.unauthorized = true) :
    answer.refuses := by
  cases answer with
  | response status body =>
    obtain rfl : status = 401 := of_decide_eq_true h
    exact List.mem_cons_self
  | httpError | otherError => cases h

theorem Sound.answered (h : request.Sound) (hunfinished : request.isEnded = false)
    (retried : Bool) (answer : HttpAnswer) :
    (request.answered retried answer).Sound ∧
      (request.answered retried answer).phase ≠ .ended .cancelled := by
  have hheard (hrefuses : answer.refuses) :
      ∀ other ∈ request.answers ++ [answer], other.refuses :=
    (forall_mem_concat (h.refused hunfinished)).mpr hrefuses
  have hlast : answer ∈ request.answers ++ [answer] :=
    List.mem_append_right _ (List.mem_singleton_self answer)
  unfold QqRequest.answered
  split_ifs with hretry
  · obtain ⟨hunauthorized, -⟩ := Bool.and_eq_true_iff.mp hretry
    exact ⟨⟨fun _ => hheard (unauthorized_refuses hunauthorized), nofun⟩, nofun⟩
  · cases hread : readAnswer answer with
    | ok ref =>
      refine ⟨⟨nofun, fun result hphase => ?_⟩, nofun⟩
      cases hphase
      exact ⟨fun _ => ⟨answer, hlast, readAnswer_ok hread⟩, nofun⟩
    | error result =>
      refine ⟨⟨nofun, fun other hphase => ?_⟩, nofun⟩
      cases hphase
      obtain ⟨hdelivered, hrejected⟩ := readAnswer_error hread
      exact ⟨fun heq => absurd heq hdelivered, fun heq => hheard (hrejected heq)⟩

end QqRequest

namespace QqClient

variable {s s' : QqClient} {k : Nat} {request : QqRequest}

def Sound (s : QqClient) : Prop := ∀ request ∈ s.requests, request.Sound

def NoneCancelled (s : QqClient) : Prop :=
  ∀ request ∈ s.requests, request.phase ≠ .ended .cancelled

theorem Sound.honest_iff (hs : s.Sound) :
    (∀ request ∈ s.requests, request.Honest) ↔ s.NoneCancelled :=
  forall₂_congr fun request hrequest => (hs request hrequest).honest_iff

theorem cancelInbound_sound (hs : s.Sound) (hnone : s.NoneCancelled) :
    s.cancelInbound.Sound ∧ (s.cancelInbound.NoneCancelled ↔ s.Undisturbed .disconnect) := by
  constructor
  · intro new hnew
    obtain ⟨request, hrequest, rfl⟩ := List.mem_map.mp hnew
    split_ifs with hcancelled
    · exact (hs request hrequest).finish hcancelled.2 nofun
    · exact hs request hrequest
  · constructor
    · intro h request hrequest hinbound
      by_contra hunfinished
      have hended := h _ (List.mem_map.mpr ⟨request, hrequest, rfl⟩)
      rw [if_pos ⟨hinbound, Bool.eq_false_iff.mpr hunfinished⟩] at hended
      exact hended rfl
    · intro h new hnew
      obtain ⟨request, hrequest, rfl⟩ := List.mem_map.mp hnew
      split_ifs with hcancelled
      · rw [h request hrequest hcancelled.1] at hcancelled
        cases hcancelled.2
      · exact hnone request hrequest

end QqClient

open QqClient in
theorem qqRequestStep_sound {s s' : QqClient} {a : QqRequestAction} (hs : s.Sound)
    (hnone : s.NoneCancelled) (h : qqRequestStep s a = some s') :
    s'.Sound ∧ (s'.NoneCancelled ↔ s.Undisturbed a) := by
  have hset {k : Nat} {request new : QqRequest} (hguard : s.Undisturbed a)
      (hrequest : s.requests[k]? = some request) (heq : s' = s.setRequest k new)
      (hnew : new.Sound ∧ new.phase ≠ .ended .cancelled) :
      s'.Sound ∧ (s'.NoneCancelled ↔ s.Undisturbed a) := by
    rw [heq]
    exact ⟨(forall_mem_set hrequest hs).mpr hnew.1,
      iff_of_true ((forall_mem_set hrequest hnone).mpr hnew.2) hguard⟩
  have hunfinished {request : QqRequest} {phase : QqPhase} (hphase : request.phase = phase)
      (hopen : ∀ sendEnd, phase ≠ .ended sendEnd) : request.isEnded = false := by
    unfold QqRequest.isEnded
    rw [hphase]
    cases phase with
    | authorizing | posting => rfl
    | ended sendEnd => exact absurd rfl (hopen sendEnd)
  cases a with
  | send msgId inboundTask =>
    cases h
    have hnew : QqRequest.Sound ⟨msgId, inboundTask,
        if s.transport then .authorizing false
        else .ended (.returned (.uncertainWith CHANNEL_DELIVERY_UNCERTAIN)), []⟩ := by
      refine ⟨fun _ => nofun, fun result hphase => ?_⟩
      split_ifs at hphase
      cases hphase
      exact ⟨nofun, nofun⟩
    refine ⟨(forall_mem_concat hs).mpr hnew,
      iff_of_true ((forall_mem_concat hnone).mpr ?_) trivial⟩
    split_ifs <;> exact nofun
  | hasToken k =>
    unfold qqRequestStep at h
    dsimp only at h
    split at h
    · rename_i request hrequest
      split at h
      · rename_i retried hphase
        cases h
        have hsound := hs request (List.mem_of_getElem? hrequest)
        exact hset trivial hrequest rfl
          ⟨⟨fun _ => hsound.refused (hunfinished hphase nofun), nofun⟩, nofun⟩
      all_goals cases h
    · cases h
  | tokenAnswered k answer =>
    unfold qqRequestStep at h
    dsimp only at h
    split at h
    · rename_i request hrequest
      split at h
      · rename_i retried hphase
        cases h
        have hsound := hs request (List.mem_of_getElem? hrequest)
        exact hset trivial hrequest rfl
          (hsound.tokenAnswered (hunfinished hphase nofun) retried answer)
      all_goals cases h
    · cases h
  | answered k answer =>
    unfold qqRequestStep at h
    dsimp only at h
    split at h
    · rename_i request hrequest
      split at h
      · rename_i retried hphase
        cases h
        have hsound := hs request (List.mem_of_getElem? hrequest)
        exact hset trivial hrequest rfl
          (hsound.answered (hunfinished hphase nofun) retried answer)
      all_goals cases h
    · cases h
  | callerCancels k =>
    unfold qqRequestStep at h
    dsimp only at h
    split at h
    · rename_i request hrequest
      split_ifs at h with hended
      cases h
      have hsound := hs request (List.mem_of_getElem? hrequest)
      exact hset trivial hrequest rfl
        ⟨hsound.finish (Bool.eq_false_iff.mpr hended) nofun, nofun⟩
    · cases h
  | connected =>
    cases h
    exact ⟨hs, iff_of_true hnone trivial⟩
  | disconnect =>
    cases h
    exact cancelInbound_sound hs hnone

/-- In every run of either adapter every verdict is honest and no call is cancelled but by its
caller, if and only if no disconnect cancels the task or the future of a call that goes on. -/
theorem sends_honest_iff (as : List WecomAction) (bs : List QqRequestAction) :
    (Always wecomStep (fun s => ∀ send ∈ s.sends, send.Honest) .fresh as ↔
      Guarded wecomStep WecomAdapter.Undisturbed .fresh as) ∧
    (Always qqRequestStep (fun s => ∀ request ∈ s.requests, request.Honest) .fresh bs ↔
      Guarded qqRequestStep QqClient.Undisturbed .fresh bs) := by
  constructor
  · have hsound : WecomAdapter.fresh.Sound := fun _ hsend => absurd hsend List.not_mem_nil
    refine always_iff_guarded (J := WecomAdapter.Sound) ?_ ?_ hsound
      fun _ hsend => absurd hsend List.not_mem_nil
    · intro s a s' hs hhonest _ h
      exact (wecomStep_sound hs (hs.honest_iff.mp hhonest) h).1
    · intro s a s' hs hhonest h
      obtain ⟨hsound, hiff⟩ := wecomStep_sound hs (hs.honest_iff.mp hhonest) h
      exact hsound.honest_iff.trans hiff
  · have hsound : QqClient.fresh.Sound := fun _ hrequest => absurd hrequest List.not_mem_nil
    refine always_iff_guarded (J := QqClient.Sound) ?_ ?_ hsound
      fun _ hrequest => absurd hrequest List.not_mem_nil
    · intro s a s' hs hhonest _ h
      exact (qqRequestStep_sound hs (hs.honest_iff.mp hhonest) h).1
    · intro s a s' hs hhonest h
      obtain ⟨hsound, hiff⟩ := qqRequestStep_sound hs (hs.honest_iff.mp hhonest) h
      exact hsound.honest_iff.trans hiff

/-- A disconnect cancels the future of a call that waits for its answer. -/
theorem disconnect_cancels_send :
    ¬ ∀ as : List WecomAction,
      Always wecomStep (fun s => ∀ send ∈ s.sends, send.Honest) .fresh as := by
  intro h
  have hlast := always_last (h [.connect, .subscribed true, .send "aibot_send_msg_1" false,
    .written 0 true, .disconnect, .disconnected, .resumes 0]) rfl
  exact hlast _ List.mem_cons_self

end WittyService

import WittyService.SessionTurns
import WittyService.TurnCalls

/-! What the calls of a turn do to the messages of the session: they touch the message of the
turn alone, and change its status at most once. -/
namespace WittyService

namespace SessionTurns

variable {s : SessionTurns}

variable {m : Nat} {x : SessionMessage} {call : MessageCall} {calls ending : List MessageCall}
  {isOver : Bool} {endedAt : Int} {status : MessageStatus}

theorem callOn_none (h : s.messages m = none) (call : MessageCall) :
    s.callOn m call = s := by
  simp only [callOn, h]

theorem callOn_some (h : s.messages m = some x) (call : MessageCall) : s.callOn m call = { s with
        messages := Function.update s.messages m (some { x with row := rowAfter x.row call })
        events := s.eventsAfter m call
        changes := if (rowAfter x.row call).status = x.row.status then s.changes
          else Function.update s.changes m
            (s.changes m ++ [(x.row.status, (rowAfter x.row call).status)]) } := by
  simp only [callOn, h]

/-- The calls on message `m` one after the other. -/
def callsOn (s : SessionTurns) (m : Nat) (calls : List MessageCall) : SessionTurns :=
  calls.foldl (fun s call => s.callOn m call) s

/-- Nothing but message `m`, its events and the record of its changes differs. -/
structure SameBut (m : Nat) (s s' : SessionTurns) : Prop where
  messageCount : s'.messageCount = s.messageCount
  registry : s'.registry = s.registry
  turns : s'.turns = s.turns
  turnCount : s'.turnCount = s.turnCount
  aborts : s'.aborts = s.aborts
  abortCount : s'.abortCount = s.abortCount
  answered : s'.answered = s.answered
  messages : ∀ m', m' ≠ m → s'.messages m' = s.messages m'
  changes : ∀ m', m' ≠ m → s'.changes m' = s.changes m'

theorem SameBut.refl (m : Nat) (s : SessionTurns) : SameBut m s s :=
  ⟨rfl, rfl, rfl, rfl, rfl, rfl, rfl, fun _ _ => rfl, fun _ _ => rfl⟩

theorem SameBut.trans {s s' s'' : SessionTurns} (h : SameBut m s s')
    (h' : SameBut m s' s'') : SameBut m s s'' where
  messageCount := h'.messageCount.trans h.messageCount
  registry := h'.registry.trans h.registry
  turns := h'.turns.trans h.turns
  turnCount := h'.turnCount.trans h.turnCount
  aborts := h'.aborts.trans h.aborts
  abortCount := h'.abortCount.trans h.abortCount
  answered := h'.answered.trans h.answered
  messages := fun m' hm' => (h'.messages m' hm').trans (h.messages m' hm')
  changes := fun m' hm' => (h'.changes m' hm').trans (h.changes m' hm')

theorem callOn_sameBut (m : Nat) (call : MessageCall) : SameBut m s (s.callOn m call) := by
  cases h : s.messages m with
  | none =>
    rw [callOn_none h]
    exact SameBut.refl m s
  | some x =>
    rw [callOn_some h]
    refine ⟨rfl, rfl, rfl, rfl, rfl, rfl, rfl, fun m' hm' => ?_, fun m' hm' => ?_⟩
    · exact Function.update_of_ne hm' _ _
    · split_ifs
      · rfl
      · exact Function.update_of_ne hm' _ _

theorem callsOn_sameBut (m : Nat) (calls : List MessageCall) :
    SameBut m s (s.callsOn m calls) := by
  induction calls generalizing s with
  | nil => exact SameBut.refl m s
  | cons call calls ih => exact (callOn_sameBut m call).trans ih

theorem callsOn_none (h : s.messages m = none) (calls : List MessageCall) :
    s.callsOn m calls = s := by
  induction calls with
  | nil => rfl
  | cons call calls ih =>
    rw [callsOn, List.foldl_cons, callOn_none h]
    exact ih

def statusAfter (x : MessageStatus × List (MessageStatus × MessageStatus)) (call : MessageCall) :
    MessageStatus × List (MessageStatus × MessageStatus) :=
  let status := match call with
    | .updateMessageStatus new => if new = .completed ∧ x.1 ≠ .generating then x.1 else new
    | .finalizeMessage new content _ => if content.bindable then new else x.1
    | _ => x.1
  (status, if status = x.1 then x.2 else x.2 ++ [(x.1, status)])

theorem statusAfter_plain (h : call.isPlain = true)
    (x : MessageStatus × List (MessageStatus × MessageStatus)) : statusAfter x call = x := by
  cases call <;> simp [statusAfter, MessageCall.isPlain] at h ⊢

theorem foldl_statusAfter_plain (h : ∀ call ∈ calls, call.isPlain = true)
    (x : MessageStatus × List (MessageStatus × MessageStatus)) :
    calls.foldl statusAfter x = x := by
  induction calls with
  | nil => rfl
  | cons call calls ih =>
    rw [List.foldl_cons, statusAfter_plain (h call List.mem_cons_self)]
    exact ih fun call' hcall' => h call' (List.mem_cons_of_mem _ hcall')

theorem callOn_status (h : s.messages m = some x) (hcall : call ≠ .createMessage) :
    ∃ row, (s.callOn m call).messages m = some { x with row := row } ∧
      (row.status, (s.callOn m call).changes m) =
        statusAfter (x.row.status, s.changes m) call := by
  rw [callOn_some h]
  refine ⟨rowAfter x.row call, Function.update_self .., ?_⟩
  have hstatus : (rowAfter x.row call).status =
      (statusAfter (x.row.status, s.changes m) call).1 := by
    cases call with
    | createMessage => exact absurd rfl hcall
    | updateMessageContent content | updateMessageStatus new | finalizeMessage new content now =>
      simp only [rowAfter, MessageCall.apply, statusAfter, Option.map_some, Option.getD_some]
      split_ifs <;> rfl
    | _ => rfl
  refine Prod.ext hstatus ?_
  rw [hstatus]
  simp only [statusAfter]
  split_ifs
  · rfl
  · exact Function.update_self ..

theorem callsOn_status (h : s.messages m = some x) (hcalls : .createMessage ∉ calls) :
    ∃ row, (s.callsOn m calls).messages m = some { x with row := row } ∧
      (row.status, (s.callsOn m calls).changes m) =
        calls.foldl statusAfter (x.row.status, s.changes m) := by
  induction calls generalizing s x with
  | nil => exact ⟨x.row, h, rfl⟩
  | cons call calls ih =>
    have hcall : call ≠ .createMessage := fun heq => hcalls (heq ▸ List.mem_cons_self)
    obtain ⟨row, hrow, hstatus⟩ := callOn_status h hcall
    obtain ⟨row', hrow', hstatus'⟩ := ih hrow
      fun hmem => hcalls (List.mem_cons_of_mem _ hmem)
    refine ⟨row', hrow', ?_⟩
    rw [List.foldl_cons, ← hstatus]
    exact hstatus'

theorem mem_kept {lost : MessageCall → Bool} (h : call ∈ kept lost calls) : call ∈ calls :=
  (List.mem_filter.mp h).1

variable (lost : MessageCall → Bool)

theorem kept_append (calls later : List MessageCall) :
    kept lost (calls ++ later) = kept lost calls ++ kept lost later :=
  List.filter_append ..

theorem kept_created (c c' : Consumer) :
    kept lost (createdCalls c c') = createdCalls c c' := by
  unfold createdCalls
  split_ifs <;> rfl

variable {t : SessionTurn} {replaces : Option Nat} {createdAt : Int}

theorem performCalls_some (h : .createMessage ∉ calls) :
    calls.foldl (performCall t replaces createdAt) (s, some m) = (s.callsOn m calls, some m) := by
  induction calls generalizing s with
  | nil => rfl
  | cons call calls ih =>
    have hcall : performCall t replaces createdAt (s, some m) call =
        (s.callOn m call, some m) := by
      cases call with
      | createMessage => exact absurd List.mem_cons_self h
      | _ => rfl
    rw [List.foldl_cons, hcall, ih fun hmem => h (List.mem_cons_of_mem _ hmem)]
    rfl

theorem performCalls_none (h : .createMessage ∉ calls) :
    calls.foldl (performCall t replaces createdAt) (s, none) = (s, none) := by
  induction calls generalizing s with
  | nil => rfl
  | cons call calls ih =>
    have hcall : performCall t replaces createdAt (s, none) call = (s, none) := by
      cases call with
      | createMessage => exact absurd List.mem_cons_self h
      | _ => rfl
    rw [List.foldl_cons, hcall, ih fun hmem => h (List.mem_cons_of_mem _ hmem)]

theorem performed_cases (s : SessionTurns) (t : SessionTurn) (replaces : Option Nat)
    (createdAt : Int) (c' : Consumer) {rest : List MessageCall} (lost : MessageCall → Bool)
    (hrest : .createMessage ∉ rest) (hid : t.consumer.assistantMsgId = t.assistantMsgId.isSome) :
    (t.assistantMsgId = none ∧ c'.assistantMsgId = false ∧
      (kept lost (createdCalls t.consumer c' ++ rest)).foldl (performCall t replaces createdAt)
        (s, t.assistantMsgId) = (s, none)) ∨
    (∃ m, t.assistantMsgId = some m ∧
      (kept lost (createdCalls t.consumer c' ++ rest)).foldl (performCall t replaces createdAt)
        (s, t.assistantMsgId) = (s.callsOn m (kept lost rest), some m)) ∨
    (t.assistantMsgId = none ∧ c'.assistantMsgId = true ∧
      (kept lost (createdCalls t.consumer c' ++ rest)).foldl (performCall t replaces createdAt)
        (s, t.assistantMsgId) =
          ((s.createReply t.prompt replaces createdAt).callsOn s.messageCount (kept lost rest),
            some s.messageCount)) := by
  have hkept : .createMessage ∉ kept lost rest := fun hmem => hrest (mem_kept hmem)
  rw [kept_append, kept_created, createdCalls, hid]
  cases hown : t.assistantMsgId with
  | some m => exact .inr (.inl ⟨m, rfl, performCalls_some hkept⟩)
  | none =>
    cases hborn : c'.assistantMsgId with
    | false => exact .inl ⟨rfl, rfl, performCalls_none hkept⟩
    | true => exact .inr (.inr ⟨rfl, rfl, performCalls_some hkept⟩)

theorem plain_notMem (h : ∀ call ∈ calls, call.isPlain = true) :
    MessageCall.createMessage ∉ calls := by
  intro hmem
  have hplain := h _ hmem
  cases hplain

theorem ending_notMem
    (h : EndingCalls isOver endedAt ending) : MessageCall.createMessage ∉ ending := by
  rcases h with rfl | ⟨-, rfl | ⟨text, rfl⟩⟩ <;> simp

theorem foldl_statusAfter_kept {plain : List MessageCall}
    (hplain : ∀ call ∈ plain, call.isPlain = true) (ending : List MessageCall)
    (x : MessageStatus × List (MessageStatus × MessageStatus)) :
    (kept lost (plain ++ ending)).foldl statusAfter x = (kept lost ending).foldl statusAfter x := by
  rw [kept_append, List.foldl_append,
    foldl_statusAfter_plain fun call hcall => hplain call (mem_kept hcall)]

/-- A reply that is being generated or was aborted keeps its status, or it was generating, gets
a final one and is left to it. -/
theorem foldl_statusAfter_ending (h : EndingCalls isOver endedAt ending) (lost : MessageCall → Bool)
    (hstatus : status = .generating ∨ status = .interrupted)
    (changes : List (MessageStatus × MessageStatus)) :
    (kept lost ending).foldl statusAfter (status, changes) = (status, changes) ∨
      isOver = true ∧ status = .generating ∧ ∃ outcome, outcome ≠ .generating ∧
        (kept lost ending).foldl statusAfter (status, changes) =
          (outcome, changes ++ [(.generating, outcome)]) := by
  rcases h with rfl | ⟨hover, rfl | ⟨text, rfl⟩⟩
  · exact .inl rfl
  · have hcompact : ∀ x, (kept lost [.compactMessageDeltaEvents]).foldl statusAfter x = x := by
      intro x
      apply foldl_statusAfter_plain
      intro call hcall
      rw [List.mem_singleton.mp (mem_kept hcall)]
      rfl
    have hsplit : (kept lost [.updateMessageStatus .completed, .compactMessageDeltaEvents]).foldl
        statusAfter (status, changes) =
          (kept lost [.updateMessageStatus .completed]).foldl statusAfter (status, changes) := by
      rw [← List.singleton_append, kept_append, List.foldl_append, hcompact]
    rw [hsplit]
    cases hlost : lost (.updateMessageStatus .completed) with
    | true => exact .inl (by simp [kept, hlost])
    | false =>
      rcases hstatus with rfl | rfl
      · exact .inr ⟨hover, rfl, .completed, nofun, by simp [kept, hlost, statusAfter]⟩
      · exact .inl (by simp [kept, hlost, statusAfter])
  · cases hlost : lost (.finalizeMessage .interrupted text endedAt) with
    | true => exact .inl (by simp [kept, hlost])
    | false =>
      cases hbind : text.bindable with
      | false => exact .inl (by simp [kept, hlost, statusAfter, hbind])
      | true =>
        rcases hstatus with rfl | rfl
        · exact .inr ⟨hover, rfl, .interrupted, nofun, by simp [kept, hlost, statusAfter, hbind]⟩
        · exact .inl (by simp [kept, hlost, statusAfter, hbind])

theorem foldl_statusAfter_error {text : String} (hstatus : status ≠ .error)
    (changes : List (MessageStatus × MessageStatus)) :
    (kept lost [.finalizeMessage .error (.str text) endedAt]).foldl statusAfter (status, changes) =
      if lost (.finalizeMessage .error (.str text) endedAt) then (status, changes)
      else (.error, changes ++ [(status, .error)]) := by
  cases hlost : lost (.finalizeMessage .error (.str text) endedAt) with
  | true => simp [kept, hlost]
  | false => simp [kept, hlost, statusAfter, Json.bindable, hstatus.symm]

end SessionTurns

end WittyService

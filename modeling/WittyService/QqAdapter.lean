import WittyService.GuardedRuns
import WittyService.OrderedDict

/-! The replies of the QQ adapter. The platform lets a bot answer a message a few times within a
while, with passive replies that name the message and are numbered; what is sent besides is a
proactive message. Moments are in microseconds. -/
namespace WittyService

structure Route where
  instanceId : String
  conversationType : String
  platformUserId : String
  deriving DecidableEq, Repr

inductive Certainty where
  | delivered
  | rejected
  | uncertain
  deriving DecidableEq, Repr

def CONVERSATION_TYPE_DIRECT : String := "direct"
def CONVERSATION_TYPE_GROUP : String := "group"

def passiveReplyRule (conversationType : String) : Int × Nat :=
  if conversationType = CONVERSATION_TYPE_DIRECT then (3600, 4)
  else if conversationType = CONVERSATION_TYPE_GROUP then (300, 5)
  else (300, 4)

def CONTEXT_RETENTION_SECONDS : Int := 3600
@[irreducible] def MAX_TRACKED_CONTEXTS : Nat := 1000
def microseconds (seconds : Int) : Int := seconds * 1000000

/-- A message from the gateway of the platform with its outbound target. -/
structure InboundMessage where
  platformEventId : String
  route : Route
  receivedAt : Int
  targetId : String
  deriving DecidableEq, Repr

structure ReplyContext where
  msgId : String
  targetId : String
  receivedAt : Int
  windowSeconds : Int
  limit : Nat
  passiveUsed : Nat
  nextSeq : Nat
  deriving DecidableEq, Repr

/-- `msg_id` and `msg_seq`, which only a passive reply has. -/
structure PassiveRef where
  msgId : String
  msgSeq : Nat
  deriving DecidableEq, Repr

structure Delivery where
  targetId : String
  passive : Option PassiveRef
  deriving DecidableEq, Repr

namespace ReplyContext

variable (context : ReplyContext)

def passiveAllowed (now : Int) : Bool :=
  context.passiveUsed < context.limit &&
    now - context.receivedAt ≤ microseconds context.windowSeconds

def takeSeq : ReplyContext := { context with nextSeq := context.nextSeq + 1 }

def charge : ReplyContext := { context with passiveUsed := context.passiveUsed + 1 }

def ofMessage (message : InboundMessage) : ReplyContext where
  msgId := message.platformEventId
  targetId := message.targetId
  receivedAt := message.receivedAt
  windowSeconds := (passiveReplyRule message.route.conversationType).1
  limit := (passiveReplyRule message.route.conversationType).2
  passiveUsed := 0
  nextSeq := 1

end ReplyContext

abbrev Contexts := OrderedDict Route ReplyContext

namespace Contexts

variable (contexts : Contexts)

def popOldest : Contexts :=
  match contexts.leastKey? ReplyContext.receivedAt with
  | none => contexts
  | some route => contexts.erase route

/-- `_prune_contexts`. Its loop pops one context a turn until the limit is met. -/
def prune (now : Int) : Contexts :=
  let kept := contexts.keep fun entry =>
    decide (now - microseconds CONTEXT_RETENTION_SECONDS ≤ entry.2.receivedAt)
  popOldest^[kept.size - MAX_TRACKED_CONTEXTS] kept

/-- The message is the one the context of its route stands for. -/
def Repushed (now : Int) (message : InboundMessage) : Prop :=
  ((contexts.prune now).get? message.route).map ReplyContext.msgId = some message.platformEventId

instance (now : Int) (message : InboundMessage) : Decidable (contexts.Repushed now message) :=
  inferInstanceAs (Decidable (_ = _))

def remember (now : Int) (message : InboundMessage) : Contexts :=
  if contexts.Repushed now message then contexts.prune now
  else (contexts.prune now).set message.route (.ofMessage message)

def planDelivery (now : Int) (route : Route) : Delivery × Contexts :=
  let contexts := contexts.prune now
  match contexts.get? route with
  | none => (⟨route.platformUserId, none⟩, contexts)
  | some context =>
    if context.passiveAllowed now then
      (⟨context.targetId, some ⟨context.msgId, context.nextSeq⟩⟩,
        contexts.adjust route .takeSeq)
    else (⟨context.targetId, none⟩, contexts)

/-- `_consume_passive`: the context that the route has now is charged. -/
def consumePassive (route : Route) (delivery : Delivery) (consumed : Bool) : Contexts :=
  if consumed && delivery.passive.isSome then contexts.adjust route .charge else contexts

end Contexts

/-- A call of `send_text` that is cancelled while it waits for the platform has no result. -/
inductive SendStatus where
  | pending
  | finished (certainty : Certainty)
  | cancelled
  deriving DecidableEq, Repr

structure Send where
  route : Route
  delivery : Delivery
  status : SendStatus
  deriving DecidableEq, Repr

/-- A connected adapter, with every call of `send_text` so far. -/
structure QqAdapter where
  contexts : Contexts
  sends : List Send

/-- A frame of the platform, and a call of `send_text` from its start to its await and from
there to its end. A call is named by its place among all. -/
inductive QqAction where
  | frame (now : Int) (message : InboundMessage)
  | send (now : Int) (route : Route)
  | settle (call : Nat) (certainty : Certainty)
  | cancel (call : Nat)
  deriving DecidableEq, Repr

namespace QqAdapter

variable (s : QqAdapter)

/-- `_handle_event`, up to the task that passes the message on. -/
def handleEvent (now : Int) (message : InboundMessage) : QqAdapter :=
  if message.targetId = "" then s
  else { s with contexts := s.contexts.remember now message }

def startSend (now : Int) (route : Route) : QqAdapter where
  contexts := (s.contexts.planDelivery now route).2
  sends := s.sends ++ [⟨route, (s.contexts.planDelivery now route).1, .pending⟩]

def pending? (call : Nat) : Option Send :=
  s.sends[call]?.filter fun send => send.status = .pending

def endSend (call : Nat) (send : Send) (certainty : Certainty) : QqAdapter where
  contexts := s.contexts.consumePassive send.route send.delivery (certainty ≠ .rejected)
  sends := s.sends.set call { send with status := .finished certainty }

def cancelSend (call : Nat) (send : Send) : QqAdapter :=
  { s with sends := s.sends.set call { send with status := .cancelled } }

end QqAdapter

def qqStep (s : QqAdapter) : QqAction → Option QqAdapter
  | .frame now message => some (s.handleEvent now message)
  | .send now route => some (s.startSend now route)
  | .settle call certainty => (s.pending? call).map fun send => s.endSend call send certainty
  | .cancel call => (s.pending? call).map fun send => s.cancelSend call send

def QqAdapter.fresh : QqAdapter := ⟨.empty, []⟩

namespace Contexts

variable {contexts : Contexts} {now : Int} {route : Route} {context : ReplyContext}

theorem get?_popOldest (h : contexts.popOldest.get? route = some context) :
    contexts.get? route = some context := by
  unfold popOldest at h
  split at h
  · exact h
  · rw [OrderedDict.get?_erase] at h
    split_ifs at h
    exact h

theorem get?_popOldest_iterate {n : Nat} (h : (popOldest^[n] contexts).get? route = some context) :
    contexts.get? route = some context := by
  induction n generalizing contexts with
  | zero => exact h
  | succ n ih => exact get?_popOldest (ih h)

theorem get?_prune (h : (contexts.prune now).get? route = some context) :
    contexts.get? route = some context := by
  have hkept := get?_popOldest_iterate h
  rw [OrderedDict.get?_keep, Option.filter_eq_some_iff] at hkept
  exact hkept.1

theorem get?_remember {message : InboundMessage}
    (h : (contexts.remember now message).get? route = some context) :
    contexts.get? route = some context ∨
      (¬ contexts.Repushed now message ∧ route = message.route ∧ context = .ofMessage message) := by
  unfold remember at h
  split at h
  · exact .inl (get?_prune h)
  · next hnew =>
    rw [OrderedDict.get?_set] at h
    split at h
    · next hroute => exact .inr ⟨hnew, hroute, (Option.some.inj h).symm⟩
    · exact .inl (get?_prune h)

theorem planDelivery_cases (contexts : Contexts) (now : Int) (route : Route) :
    ((contexts.planDelivery now route).1.passive = none ∧
      (contexts.planDelivery now route).2 = contexts.prune now) ∨
    ∃ context, (contexts.prune now).get? route = some context ∧
      context.passiveAllowed now = true ∧
      (contexts.planDelivery now route).1.passive = some ⟨context.msgId, context.nextSeq⟩ ∧
      (contexts.planDelivery now route).2 = (contexts.prune now).adjust route .takeSeq := by
  unfold planDelivery
  dsimp only
  generalize contexts.prune now = pruned
  split
  · exact .inl ⟨rfl, rfl⟩
  · next context hcontext =>
    split
    · next hallowed => exact .inr ⟨context, hcontext, hallowed, rfl, rfl⟩
    · exact .inl ⟨rfl, rfl⟩

theorem get?_planDelivery {route' : Route}
    (h : (contexts.planDelivery now route).2.get? route' = some context) :
    ∃ before, contexts.get? route' = some before ∧
      (context = before ∨ context = before.takeSeq) := by
  obtain ⟨-, hcontexts⟩ | ⟨-, -, -, -, hcontexts⟩ := planDelivery_cases contexts now route
  · rw [hcontexts] at h
    exact ⟨context, get?_prune h, .inl rfl⟩
  · rw [hcontexts] at h
    obtain ⟨before, hbefore, rfl⟩ := OrderedDict.of_get?_adjust h
    refine ⟨before, get?_prune hbefore, ?_⟩
    split_ifs
    · exact .inr rfl
    · exact .inl rfl

end Contexts

end WittyService

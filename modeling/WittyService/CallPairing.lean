import WittyService.DshCalls
import WittyService.OpenClawCalls
import WittyService.OpenCodeCalls
import WittyService.SilentTurns

/-! The calls and the artifacts that a turn of any of the runtimes sends. A runtime can hear of a
call through two channels. Its announcements are told once, its answers as often as they come. -/
namespace WittyService

def RuntimeParts.detecting (parts : RuntimeParts) (loads : String → Option Json) :
    RuntimeParts where
  openclaw := ⟨parts.openclaw.lifecycleError, ArtifactDetector.parts loads⟩
  opencode := ⟨parts.opencode.openCodeError, ArtifactDetector.parts loads⟩
  dsh := { parts.dsh with loads }.detecting

inductive RuntimeRaws where
  | openclaw (raws : List GatewayEvent)
  | opencode (raws : List Dict)
  | dsh (raws : List Notification)

namespace RuntimeRaws

variable (plus : NumberAdd) (parts : RuntimeParts)

def signals : RuntimeRaws → List CallSignal
  | openclaw raws => raws.flatMap OpenClawRuntime.rawSignals
  | opencode raws => raws.flatMap OpenCodeRuntime.rawSignals
  | dsh raws => raws.flatMap (DshRuntime.rawSignals parts.dsh)

/-- What `run_turn` sends, but for the usage, when the raw events end or when an error is raised
after them that the runtime may catch. -/
def sent (raised : Bool) : RuntimeRaws → List RuntimeTurnEvent
  | openclaw raws =>
    sentEvents
      ((OpenClawRuntime.hooks plus.add parts.openclaw).runTurn plus.add raws raised).emitted
  | opencode raws =>
    sentEvents
      ((OpenCodeRuntime.hooks plus.add parts.opencode).runTurn plus.add raws raised).emitted
  | dsh raws =>
    sentEvents ((DshRuntime.hooks plus.add parts.dsh).runTurn plus.add raws raised).emitted

def raises : RuntimeRaws → Bool
  | openclaw raws => ((OpenClawRuntime.hooks plus.add parts.openclaw).turn raws).crashed
  | opencode raws => ((OpenCodeRuntime.hooks plus.add parts.opencode).turn raws).crashed
  | dsh raws => ((DshRuntime.hooks plus.add parts.dsh).turn raws).crashed

end RuntimeRaws

/-- Every artifact is completed once, after the only one with its path was started. -/
def ArtifactsPaired (sent : List RuntimeTurnEvent) : Prop :=
  ∀ before event after, sent = before ++ event :: after → event.type = .artifactCompleted →
    ∃ path, artifactPath event.payload = some path ∧
      path ∈ artifactPaths .artifactStarted before ∧
      (artifactPaths .artifactStarted sent).count path = 1 ∧
      (artifactPaths .artifactCompleted sent).count path ≤ 1

theorem ArtifactsPaired.completed_once {sent : List RuntimeTurnEvent} (h : ArtifactsPaired sent)
    (path : String) : (artifactPaths .artifactCompleted sent).count path ≤ 1 := by
  by_cases hmem : path ∈ artifactPaths .artifactCompleted sent
  · obtain ⟨event, hevent, hpath⟩ := List.mem_filterMap.mp hmem
    obtain ⟨hsent, htype⟩ := List.mem_filter.mp hevent
    obtain ⟨before, after, rfl⟩ := List.append_of_mem hsent
    obtain ⟨other, hother, -, -, honce⟩ := h before event after rfl (of_decide_eq_true htype)
    rw [hpath] at hother
    cases hother
    exact honce
  · rw [List.count_eq_zero.mpr hmem]
    exact Nat.zero_le _

namespace RuntimeRaws

def writeFrame (phase toolCallId : String) : GatewayEvent :=
  ⟨"agent", [("stream", .str "tool"), ("data", .obj [("phase", .str phase),
    ("name", .str "write"), ("toolCallId", .str toolCallId),
    ("args", .obj [("path", .str "a.md")])])]⟩

def answeredTwice : RuntimeRaws := .openclaw
  [writeFrame "start" "1", writeFrame "result" "1",
    ⟨"session.message", [("message", .obj [("role", .str "toolResult"),
      ("toolName", .str "write"), ("toolCallId", .str "1")])]⟩]

def writtenTwice : RuntimeRaws := .openclaw
  [writeFrame "start" "1", writeFrame "result" "1", writeFrame "start" "2",
    writeFrame "result" "2"]

end RuntimeRaws

end WittyService

import WittyService.Json

/-! `witty_agent_server.runtimes.usage`: the usage payloads of the runtimes brought into one
shape and added up. `add` is Python's `+` on two numbers, which rounds on floats. -/
namespace WittyService

abbrev UsageAliases := List (String × List String)

def COUNT_FIELDS : List String :=
  ["input_tokens", "output_tokens", "cache_read_tokens", "cache_write_tokens"]

def USAGE_ALIASES : UsageAliases := [
  ("input_tokens", ["input_tokens", "inputTokens", "prompt_tokens", "input"]),
  ("output_tokens", ["output_tokens", "outputTokens", "completion_tokens", "output"]),
  ("cache_read_tokens", ["cache_read_tokens", "cacheReadTokens", "cache_read_input_tokens",
    "cacheRead", "cache_read"]),
  ("cache_write_tokens", ["cache_write_tokens", "cacheWriteTokens",
    "cache_creation_input_tokens", "cacheWrite", "cache_write"]),
  ("reasoning_tokens", ["reasoning_tokens", "reasoningTokens", "reasoning_output_tokens",
    "reasoning"]),
  ("total_tokens", ["total_tokens", "totalTokens", "total"]),
  ("total_cost", ["total_cost", "totalCost", "estimatedCostUsd", "estimated_cost_usd",
    "cost"])]

def CACHE_ALIASES : UsageAliases := [
  ("cache_read_tokens", ["read", "read_tokens", "readTokens"]),
  ("cache_write_tokens", ["write", "write_tokens", "writeTokens"])]

def COST_ALIASES : UsageAliases := [("total_cost", ["total", "total_cost", "totalCost", "cost"])]

/-- `_CONTAINER_KEYS`, each with what `_CONTAINER_ALIASES` says of its children. -/
def CONTAINER_KEYS : List (String × UsageAliases) := [
  ("usage", USAGE_ALIASES), ("tokens", USAGE_ALIASES), ("cache", CACHE_ALIASES),
  ("cost", COST_ALIASES), ("data", USAGE_ALIASES), ("sessions", USAGE_ALIASES)]

def Json.isNumber : Json → Bool
  | .num _ _ => true
  | _ => false

def pickUsage (payload : Dict) (aliases : List String) : Option Json :=
  aliases.findSome? fun key => (Dict.get payload key).filter Json.isNumber

def usageChildren : Option Json → List Dict
  | some (.obj fields) => [fields]
  | some (.arr items) => items.filterMap fun
    | .obj fields => some fields
    | _ => none
  | _ => []

mutual

def Json.nodes : Json → Nat
  | .arr items => Json.itemNodes items + 1
  | .obj fields => Json.fieldNodes fields + 1
  | _ => 1

def Json.itemNodes : List Json → Nat
  | [] => 0
  | item :: items => item.nodes + Json.itemNodes items

def Json.fieldNodes : List (String × Json) → Nat
  | [] => 0
  | (_, value) :: fields => value.nodes + Json.fieldNodes fields

end

/-- The `while queue` loop. Every turn takes one dictionary of the payload from the queue and
a dictionary is put there once, so the number of values bounds the turns; no two of them are
the same object, and `seen` never holds the one at hand. -/
def usageLoop : ℕ → List (Dict × UsageAliases) → Dict → Dict
  | 0, _, result => result
  | _, [], result => result
  | n + 1, (current, aliasesByField) :: queue, result =>
    let picked := aliasesByField.foldl (fun result field =>
      if (Dict.get result field.1).isSome then result
      else
        match pickUsage current field.2 with
        | some value => Dict.set result field.1 value
        | none => result) result
    usageLoop n (queue ++ CONTAINER_KEYS.flatMap fun key =>
      (usageChildren (Dict.get current key.1)).map fun item => (item, key.2)) picked

section Addition

variable (add : Json → Json → Json)

def normalizeUsagePayload (raw : Dict) : Dict :=
  let result := usageLoop (Json.obj raw).nodes [(raw, USAGE_ALIASES)] []
  if (Dict.get result "total_tokens").isSome then result
  else
    match COUNT_FIELDS.filterMap (Dict.get result) with
    | [] => result
    | parts => Dict.set result "total_tokens" (parts.foldl add (.num 0 0))

def mergeUsage (base extra : Dict) : Dict :=
  extra.foldl (fun merged kv =>
    match Dict.get merged kv.1 with
    | some current =>
      Dict.set merged kv.1 (if current.isNumber && kv.2.isNumber then add current kv.2 else kv.2)
    | none => Dict.set merged kv.1 kv.2) base

end Addition

end WittyService

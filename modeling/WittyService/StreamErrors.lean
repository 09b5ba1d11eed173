import Mathlib.Tactic.IntervalCases
import WittyService.CodeLines
import WittyService.CommitImport

/-! The payloads of `stream_errors.py`: five normalisers take what a runtime raised or sent to one
contract for the code, the message, the source and whether to try again. -/
namespace WittyService

open CodeLines Utf8Text

/-- A value of raw error data. Floats, lists and all else the code takes for no type of its own. -/
inductive Datum where
  | none
  | bool (b : Bool)
  | int (n : ℤ)
  | str (s : CodePoints)
  | mapping (members : List (CodePoints × Datum))
  | other (value : ℕ)

abbrev ErrorData := List (CodePoints × Datum)

inductive StreamErrorCode where
  | upstreamAuth
  | upstreamRateLimit
  | upstreamQuotaExceeded
  | upstreamRequest
  | upstreamServer
  | upstreamTimeout
  | upstreamOutputTruncated
  | transportClosed
  | transportError
  | runtimeProtocolError
  | runtimeLifecycleError
  | internalError
  deriving DecidableEq

def StreamErrorCode.value : StreamErrorCode → CodePoints
  | .upstreamAuth => text "UPSTREAM_AUTH"
  | .upstreamRateLimit => text "UPSTREAM_RATE_LIMIT"
  | .upstreamQuotaExceeded => text "UPSTREAM_QUOTA_EXCEEDED"
  | .upstreamRequest => text "UPSTREAM_REQUEST"
  | .upstreamServer => text "UPSTREAM_SERVER"
  | .upstreamTimeout => text "UPSTREAM_TIMEOUT"
  | .upstreamOutputTruncated => text "UPSTREAM_OUTPUT_TRUNCATED"
  | .transportClosed => text "TRANSPORT_CLOSED"
  | .transportError => text "TRANSPORT_ERROR"
  | .runtimeProtocolError => text "RUNTIME_PROTOCOL_ERROR"
  | .runtimeLifecycleError => text "RUNTIME_LIFECYCLE_ERROR"
  | .internalError => text "INTERNAL_ERROR"

inductive StreamErrorSource where
  | upstream
  | transport
  | runtime
  | internal
  deriving DecidableEq

structure StreamErrorPayload where
  code : CodePoints
  message : CodePoints
  source : StreamErrorSource
  retryable : Bool
  detail : Option ErrorData

/-- What the code asks an exception for, with `none` for an attribute that is missing. -/
structure RaisedException where
  message : CodePoints
  statusCode : Datum
  responseStatusCode : Datum
  reason : Datum
  code : Datum
  moduleName : CodePoints
  typeName : CodePoints

/-- What the code asks the interpreter for: word characters, the values of decimal digits, upper
and lower case, and `str` of a dict. -/
structure ErrorTools where
  isWord : ℕ → Bool
  digit : ℕ → Option ℕ
  upper : CodePoints → CodePoints
  lower : CodePoints → CodePoints
  repr : ErrorData → CodePoints
  digit_ascii : ∀ d < 10, digit (48 + d) = some d
  digit_space : ∀ c, RuntimeSkills.isSpace c → digit c = none
  word_colon : isWord 58 = false

namespace StreamErrors

/-- The letter that `re.IGNORECASE` takes a letter for. -/
def fold (c : ℕ) : ℕ :=
  if c = 0x212A then 107
  else if c = 0x17F then 115
  else if c = 0x130 ∨ c = 0x131 then 105
  else asciiLower c

def after (word t : CodePoints) : Option CodePoints :=
  if word.isPrefixOf t then some (t.drop word.length) else none

/-- `[ _-]*` -/
def skipFiller (t : CodePoints) : CodePoints := t.dropWhile fun c => c = 32 || c = 95 || c = 45

def begins (word t : CodePoints) : Bool := (after word t).isSome

/-- One of the hints of `_QUOTA_HINT_RE` stands in front. -/
def hintAt (t : CodePoints) : Bool :=
  let yourCurrentQuota := fun t => (after (text "your") (skipFiller t)).any fun t =>
    (after (text "current") (skipFiller t)).any fun t => begins (text "quota") (skipFiller t)
  ((after (text "insufficient") t).any fun t =>
      begins (text "quota") (skipFiller t) || begins (text "balance") (skipFiller t)) ||
    ((after (text "quota") t).any fun t =>
      begins (text "exceed") (skipFiller t) || begins (text "exhaust") (skipFiller t)) ||
    ((after (text "exceed") t).any fun t =>
      yourCurrentQuota t || (after (text "ed") t).any yourCurrentQuota) ||
    begins (text "billing") t

/-- `_QUOTA_HINT_RE.search(message)`. -/
def quotaHint (message : CodePoints) : Bool := (message.map fold).tails.any hintAt

/-- `" ".join(text.split())`, cut to 500 characters. -/
def words (t : CodePoints) : List CodePoints :=
  (t.splitOnP RuntimeSkills.isSpace).filter (· ≠ [])

def singleLine (t : CodePoints) : CodePoints := ([32].intercalate (words t)).take 500

/-- `candidate.get("message")` if it is a string with something in it. -/
def messageIn (members : List (CodePoints × JsonText.Value)) : Option CodePoints :=
  match members.reverse.lookup (text "message") with
  | some (.str s) => if s = [] then none else some s
  | _ => none

def innerMessage : JsonText.Value → Option CodePoints
  | .obj members =>
    match members.reverse.lookup (text "error") with
    | some (.obj nested) => (messageIn nested).or (messageIn members)
    | _ => messageIn members
  | _ => none

section

variable (py : ErrorTools)

def threeDigits : CodePoints → Option (ℕ × CodePoints)
  | a :: b :: c :: rest =>
    (py.digit a).bind fun a => (py.digit b).bind fun b => (py.digit c).map fun c =>
      ((a * 10 + b) * 10 + c, rest)
  | _ => none

/-- The groups of `^HTTP\s+(\d{3})\b[:\s]*(.*)$`. -/
def httpPrefix (t : CodePoints) : Option (ℕ × CodePoints) :=
  (after (text "HTTP") t).bind fun rest =>
    if rest.head?.any RuntimeSkills.isSpace then
      (threeDigits py (rest.dropWhile RuntimeSkills.isSpace)).bind fun status =>
        if status.2.head?.any py.isWord then none
        else some (status.1, status.2.dropWhile fun c => c = 58 || RuntimeSkills.isSpace c)
    else none

/-- The group of `^\s*\d{3}\s*:\s*(\{.*\})\s*$`. -/
def embeddedBody (t : CodePoints) : Option CodePoints :=
  (threeDigits py (t.dropWhile RuntimeSkills.isSpace)).bind fun status =>
    (after [58] (status.2.dropWhile RuntimeSkills.isSpace)).bind fun rest =>
      let body := RuntimeSkills.strip rest
      if body.head? = some 123 ∧ body.getLast? = some 125 then some body else none

def extractEmbedded (message : CodePoints) : CodePoints :=
  (((embeddedBody py message).bind JsonText.loads).bind innerMessage).getD message

/-- `isinstance(value, int)`, which holds of a bool. -/
def asInt : Datum → Option Datum
  | .int n => some (.int n)
  | .bool b => some (.bool b)
  | _ => none

def classifyFromStatus : Option Datum → Option StreamErrorCode
  | some (.int n) =>
    if n = 401 ∨ n = 403 then some .upstreamAuth
    else if n = 429 then some .upstreamRateLimit
    else if n = 408 ∨ n = 504 then some .upstreamTimeout
    else if 400 ≤ n ∧ n < 500 then some .upstreamRequest
    else if 500 ≤ n ∧ n < 600 then some .upstreamServer
    else none
  | _ => none

def classifyDshReason (reason : CodePoints) : StreamErrorCode :=
  if reason = text "transport-closed" then .transportClosed
  else if reason = text "json-rpc-error" ∨ reason = text "harness-error" then .transportError
  else if reason = text "timeout" then .upstreamTimeout
  else if reason = text "protocol-error" then .runtimeProtocolError
  else if reason = text "config-invalid" then .upstreamRequest
  else if reason = text "not-started" then .runtimeLifecycleError
  else .transportError

def classifyFromCodeHint (code : CodePoints) : StreamErrorCode :=
  let upper := py.upper code
  if upper = [] then .upstreamRequest
  else if text "AUTH" <:+: upper then .upstreamAuth
  else if text "RATE" <:+: upper ∨ text "QUOTA" <:+: upper then .upstreamRateLimit
  else if text "TIMEOUT" <:+: upper ∨ text "DEADLINE" <:+: upper then .upstreamTimeout
  else if text "INVALID" <:+: upper ∨ text "BAD_REQUEST" <:+: upper ∨ text "NOT_FOUND" <:+: upper
  then .upstreamRequest
  else if text "INTERNAL" <:+: upper ∨ text "SERVER" <:+: upper ∨ text "UNAVAILABLE" <:+: upper
  then .upstreamServer
  else .upstreamRequest

def overrideAllowed (code : StreamErrorCode) : Option Datum → Bool
  | some (.int n) => (n = 402 || n = 429) && code ∈ [.upstreamRateLimit, .upstreamRequest]
  | some _ => false
  | none => code ∈ [.runtimeLifecycleError, .upstreamRateLimit]

def applyQuotaOverride (code : StreamErrorCode) (message : CodePoints) (statusCode : Option Datum) :
    StreamErrorCode :=
  if overrideAllowed code statusCode ∧ quotaHint message then .upstreamQuotaExceeded else code

def isRetryableCode (code : StreamErrorCode) : Bool :=
  code ∈ [.upstreamRateLimit, .upstreamServer, .upstreamTimeout, .transportClosed,
    .transportError]

def sourceOfValue (code : CodePoints) : StreamErrorSource :=
  if (text "UPSTREAM_").isPrefixOf code then .upstream
  else if (text "TRANSPORT_").isPrefixOf code then .transport
  else if (text "RUNTIME_").isPrefixOf code then .runtime
  else .internal

def sourceForCode (code : StreamErrorCode) : StreamErrorSource := sourceOfValue code.value

def classifyUpstream (statusCode : Option Datum) (message : CodePoints)
    (codeHint : Option CodePoints) (fallback : StreamErrorCode) : StreamErrorCode :=
  let hinted := match codeHint with
    | some hint => if hint = [] then fallback else classifyFromCodeHint py hint
    | none => fallback
  applyQuotaOverride ((classifyFromStatus statusCode).getD hinted) message statusCode

/-- `_clean_detail` and the cut of the response body. -/
def cleanDetail (detail : ErrorData) : Option ErrorData :=
  let cleaned := detail.filter fun m => match m.2 with
    | .none => false
    | .str s => s ≠ []
    | _ => true
  if cleaned = [] then none
  else some (cleaned.map fun m => match m.2 with
    | .str s => if m.1 = text "response_body" then (m.1, .str (s.take 500)) else m
    | _ => m)

/-- `normalize_stream_error` with a code of the list. -/
def normalizeStreamError (code : StreamErrorCode) (message : CodePoints)
    (source : StreamErrorSource) (retryable : Bool) (detail : Option ErrorData) :
    StreamErrorPayload where
  code := code.value
  message := singleLine (extractEmbedded py message)
  source := source
  retryable := retryable
  detail := detail.bind cleanDetail

def field (data : ErrorData) (key : CodePoints) : Datum := (data.lookup key).getD .none

def given : Datum → Option CodePoints
  | .str s => if s = [] then none else some s
  | _ => none

def mappingOf : Datum → ErrorData
  | .mapping members => members
  | _ => []

def orNone : Option CodePoints → Datum
  | some s => .str s
  | none => .none

def opencodeMessage (data : ErrorData) : CodePoints :=
  (given (field data (text "message"))).getD (text "opencode session error")

def opencodeDetail (error data : ErrorData) : ErrorData :=
  [(text "provider_code", field error (text "name"))] ++
    ((asInt (field data (text "statusCode"))).map fun n => (text "status_code", n)).toList ++
    ((given (field (mappingOf (field data (text "metadata"))) (text "url"))).map
      fun url => (text "url", Datum.str url)).toList ++
    ((given (field data (text "responseBody"))).map
      fun body => (text "response_body", Datum.str body)).toList

def normalizeOpencodeError (raw : ErrorData) : StreamErrorPayload :=
  match field raw (text "error") with
  | .mapping error =>
    let data := mappingOf (field error (text "data"))
    let code := classifyUpstream py (asInt (field data (text "statusCode"))) (opencodeMessage data)
      none .runtimeLifecycleError
    let retryable := match field data (text "isRetryable") with
      | .bool explicit => explicit
      | _ => isRetryableCode code
    normalizeStreamError py code (opencodeMessage data) .upstream
      (code ≠ .upstreamQuotaExceeded && retryable) (some (opencodeDetail error data))
  | _ =>
    normalizeStreamError py .runtimeProtocolError
      (text "opencode emitted an event without a parsable error object") .runtime false
      (some [(text "raw_event", .str ((py.repr raw).take 500))])

def openclawText (data : ErrorData) : CodePoints :=
  ((given (field data (text "message"))).or (given (field data (text "error")))).getD []

def normalizeOpenclawLifecycleError (data : ErrorData) : StreamErrorPayload :=
  let rawMessage := openclawText data
  let providerCode := orNone (given (field data (text "code")))
  match httpPrefix py rawMessage with
  | some (statusCode, rest) =>
    let stripped := RuntimeSkills.strip rest
    let rootCause := if stripped = [] then rawMessage else stripped
    let code := classifyUpstream py (some (.int statusCode)) rootCause none .runtimeLifecycleError
    normalizeStreamError py code rootCause .upstream (isRetryableCode code)
      (some [(text "provider_code", providerCode), (text "status_code", .int statusCode)])
  | none =>
    let code := applyQuotaOverride .runtimeLifecycleError rawMessage none
    normalizeStreamError py code
      (if rawMessage = [] then text "openclaw lifecycle stream error" else rawMessage)
      (if code = .upstreamQuotaExceeded then .upstream else .runtime) false
      (some [(text "provider_code", providerCode)])

def normalizeDshTurnError (error : ErrorData) : StreamErrorPayload :=
  let codeStr := given (field error (text "code"))
  let message := (given (field error (text "message"))).getD (text "dsh turn ended with error")
  let statusCode := asInt (field error (text "status"))
  let code := classifyUpstream py statusCode message codeStr .upstreamRequest
  normalizeStreamError py code message .upstream (isRetryableCode code)
    (some [(text "provider_code", orNone codeStr), (text "status_code", statusCode.getD .none)])

def normalizeDshClientError (reason message : CodePoints) : StreamErrorPayload :=
  let code := classifyDshReason reason
  normalizeStreamError py code message (sourceForCode code) (isRetryableCode code)
    (some [(text "provider_code", .str reason)])

def messageOr (message default : CodePoints) : CodePoints :=
  if message = [] then default else message

def normalizeExceptionError (exc : RaisedException) : StreamErrorPayload :=
  match (asInt exc.statusCode).or (asInt exc.responseStatusCode) with
  | some statusCode =>
    let message := messageOr exc.message (text "runtime request failed")
    let code := classifyUpstream py (some statusCode) message none .internalError
    normalizeStreamError py code message (sourceForCode code) (isRetryableCode code)
      (some [(text "provider_code", exc.code), (text "status_code", statusCode)])
  | none =>
    match given exc.reason with
    | some reason => normalizeDshClientError py reason (messageOr exc.message reason)
    | none =>
      if (text "httpx").isPrefixOf exc.moduleName then
        if text "timeout" <:+: py.lower exc.typeName then
          normalizeStreamError py .upstreamTimeout
            (messageOr exc.message (text "upstream request timed out"))
            (sourceForCode .upstreamTimeout) true none
        else
          normalizeStreamError py .transportError
            (messageOr exc.message (text "upstream transport error"))
            (sourceForCode .transportError) true none
      else
        normalizeStreamError py .internalError
          (messageOr exc.message (text "runtime request failed")) .internal false
          (some [(text "provider_code", orNone (given exc.code))])

end

end StreamErrors

/-- A raw error of one of the kinds that there is a normaliser for. -/
inductive RawError where
  | opencode (raw : ErrorData)
  | openclaw (data : ErrorData)
  | dshTurn (error : ErrorData)
  | dshClient (reason message : CodePoints)
  | exception (exc : RaisedException)

namespace StreamErrors

def normalize (py : ErrorTools) : RawError → StreamErrorPayload
  | .opencode raw => normalizeOpencodeError py raw
  | .openclaw data => normalizeOpenclawLifecycleError py data
  | .dshTurn error => normalizeDshTurnError py error
  | .dshClient reason message => normalizeDshClientError py reason message
  | .exception exc => normalizeExceptionError py exc

structure Contract (p : StreamErrorPayload) : Prop where
  source : p.source = sourceOfValue p.code
  quota : p.code = StreamErrorCode.upstreamQuotaExceeded.value → p.retryable = false
  oneLine : ∀ c ∈ p.message, isLineEnd c = false
  length : p.message.length ≤ 500

def IsErrorStatus (n : ℤ) : Prop := 400 ≤ n ∧ n < 600

/-- The raw error has a status of an error, or none and a message that is about a quota, wherever
its source is taken to be upstream whatever its code is. -/
def Placed (py : ErrorTools) : RawError → Prop
  | .opencode raw =>
    match field raw (text "error") with
    | .mapping error =>
      let data := mappingOf (field error (text "data"))
      (∃ n, asInt (field data (text "statusCode")) = some (.int n) ∧ IsErrorStatus n) ∨
        (asInt (field data (text "statusCode")) = none ∧ quotaHint (opencodeMessage data))
    | _ => True
  | .openclaw data =>
    ∀ statusCode rest, httpPrefix py (openclawText data) = some (statusCode, rest) →
      IsErrorStatus statusCode
  | _ => True

section

variable {py : ErrorTools} {message : CodePoints} {code : StreamErrorCode}
  {detail : Option ErrorData} {source : StreamErrorSource} {retryable : Bool} {statusCode : Option Datum} {n : ℤ}

theorem isSpace_of_isLineEnd {c : ℕ} (h : isLineEnd c = true) : RuntimeSkills.isSpace c = true := by
  simp only [isLineEnd, List.mem_cons, List.not_mem_nil, or_false, decide_eq_true_eq] at h
  rcases h with rfl | rfl | rfl | rfl | rfl | rfl | rfl | rfl | rfl | rfl <;> decide

variable (t : CodePoints)

theorem singleLine_oneLine : ∀ c ∈ singleLine t, isLineEnd c = false := by
  intro c hc
  rcases TextParts.of_mem_intercalate (List.mem_of_mem_take hc) with hspace | ⟨part, hpart, hc⟩
  · rw [List.mem_singleton.mp hspace]
    decide
  · have hnot := TextParts.not_of_mem_splitOnP (List.mem_of_mem_filter hpart) hc
    apply Bool.eq_false_iff.mpr
    intro hend
    rw [isSpace_of_isLineEnd hend] at hnot
    cases hnot

theorem length_singleLine : (singleLine t).length ≤ 500 := List.length_take_le _ _

theorem contract_iff : Contract (normalizeStreamError py code message source retryable detail) ↔
    source = sourceForCode code ∧ (code = .upstreamQuotaExceeded → retryable = false) := by
  have hvalue : code.value = StreamErrorCode.upstreamQuotaExceeded.value ↔
      code = .upstreamQuotaExceeded := by
    cases code <;> decide
  constructor
  · intro h
    exact ⟨h.source, fun hcode => h.quota (hvalue.mpr hcode)⟩
  · rintro ⟨hsource, hquota⟩
    exact ⟨hsource, fun hcode => hquota (hvalue.mp hcode), singleLine_oneLine _,
      length_singleLine _⟩

theorem not_retryable_quota (h : code = .upstreamQuotaExceeded) : isRetryableCode code = false := by
  rw [h]
  rfl

theorem classifyFromStatus_cases (n : ℤ) :
    (IsErrorStatus n ∧ ∃ code, classifyFromStatus (some (.int n)) = some code ∧
        sourceForCode code = .upstream) ∨
      (¬ IsErrorStatus n ∧ classifyFromStatus (some (.int n)) = none) := by
  unfold classifyFromStatus IsErrorStatus
  dsimp only
  split_ifs with hauth hrate htimeout hrequest hserver
  · exact Or.inl ⟨by omega, _, rfl, by decide⟩
  · exact Or.inl ⟨by omega, _, rfl, by decide⟩
  · exact Or.inl ⟨by omega, _, rfl, by decide⟩
  · exact Or.inl ⟨by omega, _, rfl, by decide⟩
  · exact Or.inl ⟨by omega, _, rfl, by decide⟩
  · exact Or.inr ⟨by omega, rfl⟩

theorem upstream_override (h : sourceForCode code = .upstream) :
    sourceForCode (applyQuotaOverride code message statusCode) = .upstream := by
  unfold applyQuotaOverride
  split_ifs
  · decide
  · exact h

theorem override_lifecycle (statusCode : Datum) :
    applyQuotaOverride .runtimeLifecycleError message (some statusCode) =
      .runtimeLifecycleError := by
  have hnot : overrideAllowed .runtimeLifecycleError (some statusCode) = false := by
    cases statusCode with
    | int n => simp [overrideAllowed]
    | none | bool | str | mapping | other => rfl
  rw [applyQuotaOverride, hnot, if_neg (by simp)]

theorem source_of_status (status : Datum) (fallback : StreamErrorCode) :
    ∀ n, status = .int n → IsErrorStatus n →
      sourceForCode (classifyUpstream py (some status) message none fallback) = .upstream := by
  rintro n rfl hn
  rcases classifyFromStatus_cases n with ⟨-, code, hcode, hsource⟩ | ⟨hnot, -⟩
  · rw [classifyUpstream, hcode]
    exact upstream_override hsource
  · exact absurd hn hnot

theorem source_of_lifecycle :
    sourceForCode (classifyUpstream py statusCode message none .runtimeLifecycleError) = .upstream ↔
      (∃ n, statusCode = some (.int n) ∧ IsErrorStatus n) ∨
        (statusCode = none ∧ quotaHint message = true) := by
  cases statusCode with
  | none =>
    have hallowed : overrideAllowed .runtimeLifecycleError none = true := by decide
    change sourceForCode (applyQuotaOverride .runtimeLifecycleError message none) = _ ↔ _
    rw [applyQuotaOverride, hallowed]
    cases quotaHint message with
    | true => simp [sourceForCode, sourceOfValue, StreamErrorCode.value]; decide
    | false => simp [sourceForCode]; decide
  | some status =>
    constructor
    · intro h
      left
      by_contra hnot
      have hclass : classifyFromStatus (some status) = none := by
        cases status with
        | int n =>
          rcases classifyFromStatus_cases n with ⟨hn, -⟩ | ⟨-, hnone⟩
          · exact absurd ⟨n, rfl, hn⟩ hnot
          · exact hnone
        | none | bool | str | mapping | other => rfl
      rw [classifyUpstream, hclass, Option.getD_none] at h
      rw [override_lifecycle] at h
      revert h
      decide
    · rintro (⟨n, hstatus, hn⟩ | ⟨hnone, -⟩)
      · exact source_of_status status _ n (Option.some.inj hstatus) hn
      · cases hnone

theorem upstream_codeHint (hint : CodePoints) :
    sourceForCode (classifyFromCodeHint py hint) = .upstream := by
  unfold classifyFromCodeHint
  dsimp only
  split_ifs <;> decide

theorem source_of_request (codeHint : Option CodePoints) :
    sourceForCode (classifyUpstream py statusCode message codeHint .upstreamRequest) =
      .upstream := by
  apply upstream_override
  cases hclass : classifyFromStatus statusCode with
  | none =>
    rw [Option.getD_none]
    cases codeHint with
    | none => rfl
    | some hint =>
      dsimp only
      split_ifs
      · decide
      · exact upstream_codeHint hint
  | some code =>
    rw [Option.getD_some]
    cases statusCode with
    | none => cases hclass
    | some status =>
      cases status with
      | int n =>
        rcases classifyFromStatus_cases n with ⟨-, code', hcode', hsource⟩ | ⟨-, hnone⟩
        · rw [hcode'] at hclass
          cases hclass
          exact hsource
        · rw [hnone] at hclass
          cases hclass
      | none | bool | str | mapping | other => cases hclass

theorem contract_dshClient (reason message : CodePoints) :
    Contract (normalizeDshClientError py reason message) :=
  contract_iff.mpr ⟨rfl, not_retryable_quota⟩

theorem contract_exception (exc : RaisedException) : Contract (normalizeExceptionError py exc) := by
  unfold normalizeExceptionError
  cases (asInt exc.statusCode).or (asInt exc.responseStatusCode) with
  | some statusCode => exact contract_iff.mpr ⟨rfl, not_retryable_quota⟩
  | none =>
    cases given exc.reason with
    | some reason => exact contract_dshClient _ _
    | none =>
      split_ifs
      · exact contract_iff.mpr ⟨rfl, fun h => by cases h⟩
      · exact contract_iff.mpr ⟨rfl, fun h => by cases h⟩
      · exact contract_iff.mpr ⟨by decide, fun h => by cases h⟩

theorem contract_opencode (raw : ErrorData) :
    Contract (normalizeOpencodeError py raw) ↔ Placed py (.opencode raw) := by
  rw [normalizeOpencodeError, Placed]
  cases field raw (text "error") with
  | mapping error =>
    rw [contract_iff, eq_comm, source_of_lifecycle]
    apply and_iff_left
    intro hcode
    rw [hcode]
    rfl
  | none | bool | int | str | other =>
    exact iff_of_true (contract_iff.mpr ⟨rfl, fun _ => rfl⟩) trivial

theorem contract_openclaw (data : ErrorData) :
    Contract (normalizeOpenclawLifecycleError py data) ↔ Placed py (.openclaw data) := by
  rw [normalizeOpenclawLifecycleError, Placed]
  cases httpPrefix py (openclawText data) with
  | some prefixed =>
    obtain ⟨statusCode, rest⟩ := prefixed
    rw [contract_iff, eq_comm, source_of_lifecycle]
    constructor
    · rintro ⟨⟨n, hn, hstatus⟩ | ⟨hnone, -⟩, -⟩ statusCode' rest' heq
      · cases heq
        cases hn
        exact hstatus
      · cases hnone
    · intro hplaced
      exact ⟨Or.inl ⟨_, rfl, hplaced _ _ rfl⟩, not_retryable_quota⟩
  | none =>
    refine iff_of_true (contract_iff.mpr ⟨?_, fun _ => rfl⟩) (fun _ _ h => by cases h)
    have hallowed : overrideAllowed .runtimeLifecycleError none = true := by decide
    rw [applyQuotaOverride, hallowed]
    cases quotaHint (openclawText data) <;> rfl

/-- The payload meets the contract exactly when a source that is taken to be upstream goes with a
status of an error or a used up quota. -/
theorem contract_normalize_iff (py : ErrorTools) (raw : RawError) :
    Contract (normalize py raw) ↔ Placed py raw := by
  cases raw with
  | opencode raw => exact contract_opencode raw
  | openclaw data => exact contract_openclaw data
  | dshTurn error =>
    refine iff_of_true (contract_iff.mpr ⟨?_, not_retryable_quota⟩) trivial
    exact (source_of_request _).symm
  | dshClient reason message => exact iff_of_true (contract_dshClient reason message) trivial
  | exception exc => exact iff_of_true (contract_exception exc) trivial

end

def asciiDigit (c : ℕ) : Option ℕ := if 48 ≤ c ∧ c ≤ 57 then some (c - 48) else none

theorem asciiDigit_space (c : ℕ) (h : RuntimeSkills.isSpace c = true) : asciiDigit c = none := by
  apply if_neg
  rintro ⟨hlow, hhigh⟩
  have hdigits : ((List.range 10).all fun d => !RuntimeSkills.isSpace (48 + d)) = true := by decide
  have hnot := List.all_eq_true.mp hdigits (c - 48) (List.mem_range.mpr (by omega))
  rw [Nat.add_sub_cancel' hlow, h] at hnot
  cases hnot

def asciiTools : ErrorTools where
  isWord c := isAsciiAlnum c || c = 95
  digit := asciiDigit
  upper t := t.map fun c => if 97 ≤ c ∧ c ≤ 122 then c - 32 else c
  lower t := t.map asciiLower
  repr _ := text "{}"
  digit_ascii := by decide
  digit_space := asciiDigit_space
  word_colon := by decide

/-- An error of opencode with no status: a lifecycle error of the runtime from upstream. -/
theorem lifecycle_from_upstream :
    (normalize asciiTools (.opencode [(text "error", .mapping [])])).code =
        text "RUNTIME_LIFECYCLE_ERROR" ∧
      (normalize asciiTools (.opencode [(text "error", .mapping [])])).source = .upstream ∧
      ¬ Contract (normalize asciiTools (.opencode [(text "error", .mapping [])])) := by
  have hcode : (normalize asciiTools (.opencode [(text "error", .mapping [])])).code =
      text "RUNTIME_LIFECYCLE_ERROR" := by decide
  refine ⟨hcode, rfl, ?_⟩
  intro hcontract
  have hsource := hcontract.source
  rw [hcode] at hsource
  revert hsource
  decide

end StreamErrors

end WittyService

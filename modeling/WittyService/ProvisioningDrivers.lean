import WittyService.Json

/-! The drivers of the QR codes. A driver is asked with the answers of its platform, and what it
keeps between two polls is its state, here as the driver reads it back. -/
namespace WittyService

inductive DriverStatus where
  | waiting
  | succeeded
  | expired
  | failed
  deriving DecidableEq, Repr

structure DriverSession (State : Type) where
  qrContent : String
  expiresAt : Int
  pollIntervalMs : Nat
  state : State

structure DriverOutcome (State : Type) where
  status : DriverStatus
  credentials : List (String × String) := []
  errorCode : Option String := none
  qrContent : Option String := none
  expiresAt : Option Int := none
  state : Option State := none

/-- A driver with the answers its two calls may get; a call without a result has raised. -/
structure ProvisioningDriver (State Begun Polled : Type) where
  begin : Begun → Option (DriverSession State)
  poll : Polled → State → Option (DriverOutcome State)
  /-- What the driver reads in no bytes at all. -/
  noState : State
  /-- The QR code leads to the task of the platform that the state names. -/
  Shows : String → State → Prop
  begin_shows : ∀ {reply session}, begin reply = some session →
    Shows session.qrContent session.state
  poll_shows : ∀ {reply state outcome}, poll reply state = some outcome →
    outcome.status = .waiting →
    match outcome.state with
    | none => outcome.qrContent = none
    | some state => ∃ qr, outcome.qrContent = some qr ∧ qr ≠ "" ∧ Shows qr state

structure PythonText where
  str : Json → String
  isdigit : String → Bool
  int : String → Option Int
  lower : String → String

inductive PostError where
  | transient
  | refused (code : String)
  | raises
  deriving DecidableEq, Repr

def mappingOf (value : Option Json) : Dict := (value.map Json.asDict).getD []

def isZeroCode : Option Json → Bool
  | none | some .null | some (.bool false) | some (.num 0 _) => true
  | some (.str code) => code = "0"
  | _ => false

def hexDigitUpper (n : Nat) : Char := if n < 10 then Char.ofNat (48 + n) else Char.ofNat (55 + n)

/-- One byte of `urlencode`. -/
def quoteByte (byte : UInt8) : String :=
  let c := Char.ofNat byte.toNat
  if byte < 128 && (c.isAlphanum || c ∈ ['_', '.', '-', '~']) then String.singleton c
  else if c = ' ' then "+"
  else String.ofList ['%', hexDigitUpper (byte.toNat / 16), hexDigitUpper (byte.toNat % 16)]

def urlQuote (text : String) : String := String.join (text.toUTF8.data.toList.map quoteByte)

structure QqProvisioningDriver where
  source : String
  taskTtl : Int
  maxRefreshes : Nat
  pollIntervalMs : Nat
  py : PythonText
  /-- `decrypt_bind_secret`. -/
  decrypt : String → String → Option String

structure QqState where
  taskId : String
  key : String
  refreshes : Nat
  deriving DecidableEq, Repr

/-- The answers of one call, with the key that is generated for a new task. -/
structure QqReplies where
  polled : Except PostError Dict
  created : Except PostError Dict
  key : String
  now : Int

namespace QqProvisioningDriver

def QR_SERVICE_BASE : String := "https://q.qq.com"
def QR_CONNECT_PATH : String := "/qqbot/openclaw/connect.html"
def BIND_STATUS_NONE : Int := 0
def BIND_STATUS_PENDING : Int := 1
def BIND_STATUS_COMPLETED : Int := 2
def BIND_STATUS_EXPIRED : Int := 3

def buildConnectUrl (taskId source : String) : String :=
  QR_SERVICE_BASE ++ (QR_CONNECT_PATH ++ ("?task_id=" ++ urlQuote taskId ++ "&source=" ++
    urlQuote source ++ "&_wv=2"))

variable (driver : QqProvisioningDriver)

def strOf (source : Dict) (key : String) : String :=
  match source.get key with
  | some (.str text) => String.ofList (pyStrip text)
  | some (.num m e) => driver.py.str (.num m e)
  | _ => ""

def firstStr (source : Dict) (keys : List String) : Option String :=
  (keys.map (driver.strOf source)).find? (· ≠ "")

/-- `_bind_status`; digits that are no number make it raise. -/
def bindStatus : Option Json → Except PostError (Option Int)
  | some (.num status 0) => .ok (some status)
  | some (.str text) =>
    let stripped := pyStrip text
    if driver.py.isdigit (String.ofList (stripped.dropWhile (· == '-'))) then
      match driver.py.int (String.ofList stripped) with
      | some status => .ok (some status)
      | none => .error .raises
    else .ok none
  | _ => .ok none

def createTask (reply : Except PostError Dict) : Except PostError String :=
  reply.bind fun payload =>
    if !isZeroCode (payload.get "retcode") then
      .error (.refused ("QQ_" ++ driver.py.str (payload.getD "retcode" .null)))
    else
      match driver.firstStr (mappingOf (payload.get "data")) ["task_id"] with
      | some taskId => .ok taskId
      | none => .error (.refused "QQ_NO_TASK")

def begin (replies : QqReplies) : Option (DriverSession (Option QqState)) :=
  match driver.createTask replies.created with
  | .ok taskId => some {
      qrContent := buildConnectUrl taskId driver.source
      expiresAt := replies.now + driver.taskTtl
      pollIntervalMs := driver.pollIntervalMs
      state := some ⟨taskId, replies.key, 0⟩ }
  | .error _ => none

def completed (data : Dict) (key : String) : DriverOutcome (Option QqState) :=
  match driver.firstStr data ["bot_appid", "bot_app_id", "app_id"],
    driver.firstStr data ["bot_encrypt_secret", "encrypt_secret"] with
  | some appId, some encrypted =>
    match driver.decrypt encrypted key with
    | none => { status := .failed, errorCode := some "QQ_BAD_SECRET" }
    | some secret =>
      let owner := driver.firstStr data ["user_openid", "user_open_id"]
      { status := .succeeded
        credentials := [("app_id", appId), ("secret", secret)] ++
          (owner.map fun owner => ("owner_user_openid", owner)).toList }
  | _, _ => { status := .failed, errorCode := some "QQ_MISSING_CREDENTIALS" }

/-- `_refreshed`: the task has expired, so the attempt goes on with another one. -/
def refreshed (replies : QqReplies) (refreshes : Nat) : Option (DriverOutcome (Option QqState)) :=
  if driver.maxRefreshes ≤ refreshes then some { status := .expired }
  else
    match driver.createTask replies.created with
    | .error .transient => some { status := .waiting }
    | .error (.refused code) => some { status := .failed, errorCode := some code }
    | .error .raises => none
    | .ok taskId => some {
        status := .waiting
        qrContent := some (buildConnectUrl taskId driver.source)
        expiresAt := some (replies.now + driver.taskTtl)
        state := some (some ⟨taskId, replies.key, refreshes + 1⟩) }

def poll (replies : QqReplies) : Option QqState → Option (DriverOutcome (Option QqState))
  | none => some { status := .failed, errorCode := some "QQ_BAD_STATE" }
  | some state =>
    match replies.polled with
    | .error .transient => some { status := .waiting }
    | .error (.refused code) => some { status := .failed, errorCode := some code }
    | .error .raises => none
    | .ok payload =>
      if !isZeroCode (payload.get "retcode") then
        some {
          status := .failed
          errorCode := some ("QQ_" ++ driver.py.str (payload.getD "retcode" .null)) }
      else
        let data := mappingOf (payload.get "data")
        match driver.bindStatus (data.get "status") with
        | .error _ => none
        | .ok status =>
          if status = some BIND_STATUS_COMPLETED then some (driver.completed data state.key)
          else if status = some BIND_STATUS_EXPIRED then driver.refreshed replies state.refreshes
          else if status = some BIND_STATUS_NONE ∨ status = some BIND_STATUS_PENDING then
            some { status := .waiting }
          else some { status := .failed, errorCode := some "QQ_BAD_STATUS" }

theorem buildConnectUrl_ne (taskId source : String) : buildConnectUrl taskId source ≠ "" := by
  intro h
  exact absurd (String.append_eq_empty_iff.mp h).1 (by decide)

theorem completed_ne_waiting (data : Dict) (key : String) :
    (driver.completed data key).status ≠ .waiting := by
  unfold completed
  split
  · split <;> exact nofun
  · exact nofun

variable {replies : QqReplies} {outcome : DriverOutcome (Option QqState)}

theorem refreshed_shows {driver : QqProvisioningDriver} {refreshes : Nat}
    (h : driver.refreshed replies refreshes = some outcome) :
    (outcome.state = none ∧ outcome.qrContent = none) ∨
      ∃ state : QqState, outcome.state = some (some state) ∧
        outcome.qrContent = some (buildConnectUrl state.taskId driver.source) := by
  unfold refreshed at h
  split at h
  · cases h
    exact .inl ⟨rfl, rfl⟩
  split at h
  · cases h
    exact .inl ⟨rfl, rfl⟩
  · cases h
    exact .inl ⟨rfl, rfl⟩
  · cases h
  · cases h
    exact .inr ⟨_, rfl, rfl⟩

theorem poll_waiting {driver : QqProvisioningDriver} {state : Option QqState}
    (h : driver.poll replies state = some outcome) (hstatus : outcome.status = .waiting) :
    (outcome.state = none ∧ outcome.qrContent = none) ∨
      ∃ state : QqState, outcome.state = some (some state) ∧
        outcome.qrContent = some (buildConnectUrl state.taskId driver.source) := by
  unfold poll at h
  split at h
  · cases h
    cases hstatus
  split at h
  · cases h
    exact .inl ⟨rfl, rfl⟩
  · cases h
    cases hstatus
  · cases h
  split at h
  · cases h
    cases hstatus
  dsimp only at h
  split at h
  · cases h
  split_ifs at h
  · cases h
    exact absurd hstatus (driver.completed_ne_waiting _ _)
  · exact refreshed_shows h
  · cases h
    exact .inl ⟨rfl, rfl⟩
  · cases h
    cases hstatus

theorem poll_refreshes {driver : QqProvisioningDriver} {state : Option QqState} {new : QqState}
    (h : driver.poll replies state = some outcome) (hnew : outcome.state = some (some new)) :
    new.refreshes ≤ driver.maxRefreshes := by
  unfold poll at h
  split at h
  · cases h
    cases hnew
  split at h
  · cases h
    cases hnew
  · cases h
    cases hnew
  · cases h
  split at h
  · cases h
    cases hnew
  dsimp only at h
  split at h
  · cases h
  split_ifs at h
  · cases h
    unfold completed at hnew
    repeat' split at hnew
    all_goals cases hnew
  · unfold refreshed at h
    split at h
    · cases h
      cases hnew
    next hrefreshes =>
      split at h <;> cases h <;> cases hnew
      exact Nat.not_le.mp hrefreshes
  all_goals
    cases h
    cases hnew

def Shows (qr : String) : Option QqState → Prop
  | some state => qr = buildConnectUrl state.taskId driver.source
  | none => False

def toDriver : ProvisioningDriver (Option QqState) QqReplies QqReplies where
  begin := driver.begin
  poll := driver.poll
  noState := none
  Shows := driver.Shows
  begin_shows := by
    intro reply session h
    unfold begin at h
    split at h
    · cases h
      rfl
    · cases h
  poll_shows := by
    intro reply state outcome h hstatus
    rcases poll_waiting h hstatus with ⟨hstate, hqr⟩ | ⟨state, hstate, hqr⟩
    · rw [hstate]
      exact hqr
    · rw [hstate]
      exact ⟨_, hqr, buildConnectUrl_ne _ _, rfl⟩

end QqProvisioningDriver

structure WecomProvisioningDriver where
  py : PythonText
  /-- `_valid_auth_url` lets the address through. -/
  validAuthUrl : String → Bool

namespace WecomProvisioningDriver

def QR_POLL_INTERVAL_MS : Nat := 3000
def QR_TTL : Int := 5 * 60 * 1000000
def QR_SUCCESS_STATES : List String := ["success", "succeeded", "ok"]
def QR_EXPIRED_STATES : List String := ["expired", "timeout"]
def QR_FAILED_STATES : List String := ["fail", "failed", "error", "rejected"]

variable (driver : WecomProvisioningDriver)

def strOf (source : Dict) (key : String) : Option String :=
  match source.get key with
  | some (.str text) => if text = "" then none else some text
  | some (.num m e) => some (driver.py.str (.num m e))
  | some (.bool b) => some (driver.py.str (.bool b))
  | _ => none

def firstStr (source : Dict) (keys : List String) : Option String :=
  keys.findSome? (driver.strOf source)

def scanCode (payload : Dict) : Option (String × String) :=
  let data := mappingOf (payload.get "data")
  match driver.firstStr data ["scode", "state"], driver.firstStr data ["auth_url",
    "qr_content"] with
  | some scode, some authUrl =>
    if scode ≠ "" ∧ authUrl ≠ "" ∧ driver.validAuthUrl authUrl then some (scode, authUrl) else none
  | _, _ => none

/-- An answer to `begin` of a platform that issues scan codes for addresses. -/
structure Begun (Issued : String → String → Prop) where
  payload : Except PostError Dict
  now : Int
  issued : ∀ fields scode authUrl, payload = .ok fields →
    driver.scanCode fields = some (scode, authUrl) → Issued scode authUrl

variable {driver} {Issued : String → String → Prop}

def begin (reply : driver.Begun Issued) : Option (DriverSession (Option String)) :=
  match reply.payload with
  | .error _ => none
  | .ok payload =>
    (driver.scanCode payload).map fun (scode, authUrl) => {
      qrContent := authUrl
      expiresAt := reply.now + QR_TTL
      pollIntervalMs := QR_POLL_INTERVAL_MS
      state := some scode }

variable (driver) in
def poll (reply : Except PostError Dict) : Option String → Option (DriverOutcome (Option String))
  | none | some "" => some { status := .failed, errorCode := some "WECOM_BAD_STATE" }
  | some _ =>
    match reply with
    | .error _ => none
    | .ok payload =>
      if !isZeroCode (payload.get "errcode") then
        some {
          status := .failed
          errorCode := some (driver.py.str (payload.getD "errcode" .null)) }
      else
        let data := mappingOf (payload.get "data")
        let status := driver.py.lower ((driver.firstStr data ["status", "state"]).getD "")
        if status ∈ QR_SUCCESS_STATES then
          let info := mappingOf (data.get "bot_info")
          match driver.firstStr info ["botid", "bot_id"], driver.firstStr info ["secret"] with
          | some botId, some secret =>
            if botId = "" ∨ secret = "" then
              some { status := .failed, errorCode := some "WECOM_MISSING_CREDENTIALS" }
            else
              some { status := .succeeded, credentials := [("bot_id", botId), ("secret", secret)] }
          | _, _ => some { status := .failed, errorCode := some "WECOM_MISSING_CREDENTIALS" }
        else if status ∈ QR_EXPIRED_STATES then some { status := .expired }
        else if status ∈ QR_FAILED_STATES then
          let code := driver.firstStr data ["errmsg", "error_code"]
          some {
            status := .failed
            errorCode := some ((code.filter (· ≠ "")).getD "WECOM_REJECTED") }
        else some { status := .waiting }

theorem poll_keeps {reply : Except PostError Dict} {state : Option String}
    {outcome : DriverOutcome (Option String)} (h : driver.poll reply state = some outcome) :
    outcome.state = none ∧ outcome.qrContent = none := by
  unfold poll at h
  split at h
  · cases h
    exact ⟨rfl, rfl⟩
  · cases h
    exact ⟨rfl, rfl⟩
  split at h
  · cases h
  dsimp only at h
  split_ifs at h
  · cases h
    exact ⟨rfl, rfl⟩
  · split at h
    · split_ifs at h <;> cases h <;> exact ⟨rfl, rfl⟩
    · cases h
      exact ⟨rfl, rfl⟩
  all_goals
    cases h
    exact ⟨rfl, rfl⟩

def Shows (Issued : String → String → Prop) (qr : String) : Option String → Prop
  | some scode => Issued scode qr
  | none => False

variable (driver) (Issued) in
def toDriver : ProvisioningDriver (Option String) (driver.Begun Issued)
    (Except PostError Dict) where
  begin := begin
  poll := driver.poll
  noState := none
  Shows := Shows Issued
  begin_shows := by
    intro reply session h
    unfold begin at h
    split at h
    · cases h
    · rename_i payload hpayload
      obtain ⟨⟨scode, authUrl⟩, hscan, rfl⟩ := Option.map_eq_some_iff.mp h
      exact reply.issued payload scode authUrl hpayload hscan
  poll_shows := by
    intro reply state outcome h _
    obtain ⟨hstate, hqr⟩ := poll_keeps h
    rw [hstate]
    exact hqr

end WecomProvisioningDriver

end WittyService

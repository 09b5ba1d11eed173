import WittyService.ProvisioningDrivers
import WittyService.ProvisioningFlow

/-! The polls of one attempt, one after the other under its lock, when the file of its state and
its row may refuse a write. -/
namespace WittyService

/-- How an update of the row ends: it may raise before its commit or after it. -/
inductive RowUpdate where
  | done
  | raises
  | raisesCommitted
  deriving DecidableEq, Repr

structure PollCalls where
  stateReads : Bool
  stateWrites : Bool
  stateDeletes : Bool
  rowUpdate : RowUpdate
  persistence : Persistence
  /-- The poll is cancelled while it waits for the driver. -/
  cancelled : Bool

def PollCalls.fine : PollCalls := ⟨true, true, true, .done, .stored, false⟩

structure PollInput (Polled : Type) where
  now : Int
  force : Bool
  calls : PollCalls
  reply : Polled

structure PolledAttempt (State : Type) where
  row : Attempt
  file : Option State
  lastPollAt : Option Int

namespace PolledAttempt

variable {State Begun Polled : Type} (d : ProvisioningDriver State Begun Polled)
  (s : PolledAttempt State)

/-- What `begin` leaves: the file is written first and then the row is created. -/
def begun (channel : String) (ownerRef agentId : Option String) (ref : Nat)
    (session : DriverSession State) : PolledAttempt State where
  row := ⟨channel, ownerRef, agentId, .waiting, some session.qrContent, session.pollIntervalMs,
    session.expiresAt, some ref, none⟩
  file := some session.state
  lastPollAt := none

/-- `update_provisioning`, and whether it returns. -/
def updateProvisioning (change : Attempt → Attempt) : RowUpdate → Bool × PolledAttempt State
  | .done => (true, { s with row := change s.row })
  | .raises => (false, s)
  | .raisesCommitted => (false, { s with row := change s.row })

/-- A row gets its last status; then `_clear_state` and `_forget`. -/
def leave (calls : PollCalls) (change : Attempt → Attempt) : PolledAttempt State :=
  match s.updateProvisioning (fun row => { change row with stateRef := none }) calls.rowUpdate with
  | (true, left) =>
    { left with
      file := if s.row.stateRef.isSome && calls.stateDeletes then none else left.file
      lastPollAt := none }
  | (false, left) => left

def fail (calls : PollCalls) (errorCode : Option String) : PolledAttempt State :=
  s.leave calls fun row => { row with status := .failed, errorCode := errorCode }

/-- `_rotate_state`; its result is whether the state could be kept. -/
def rotateState (calls : PollCalls) (outcome : DriverOutcome State) :
    Option (PolledAttempt State) :=
  match outcome.state, s.row.stateRef with
  | some state, some _ => if calls.stateWrites then some { s with file := some state } else none
  | _, _ => some s

def finishSucceeded (calls : PollCalls) : PolledAttempt State :=
  match calls.persistence with
  | .stored => s.leave calls fun row => { row with status := .succeeded, errorCode := none }
  | .refused errorCode | .rolledBack errorCode =>
    s.fail calls (some (errorCode.getD CHANNEL_PROVISIONING_FAILED))

def applyOutcome (calls : PollCalls) (outcome : DriverOutcome State) : PolledAttempt State :=
  match outcome.status with
  | .waiting =>
    match s.rotateState calls outcome with
    | none => s.fail calls (some CHANNEL_PROVISIONING_FAILED)
    | some rotated =>
      (rotated.updateProvisioning (fun row =>
        { row with
          qrContent := orText outcome.qrContent s.row.qrContent
          expiresAt := outcome.expiresAt.getD s.row.expiresAt }) calls.rowUpdate).2
  | .expired =>
    s.leave calls fun row =>
      { row with
        status := .expired
        errorCode := orText outcome.errorCode (some CHANNEL_PROVISIONING_EXPIRED) }
  | .succeeded =>
    if outcome.credentials = [] then
      s.fail calls (orText outcome.errorCode (some CHANNEL_PROVISIONING_FAILED))
    else s.finishSucceeded calls
  | .failed => s.fail calls (orText outcome.errorCode (some CHANNEL_PROVISIONING_FAILED))

def throttled (now : Int) : Bool :=
  match s.lastPollAt with
  | some last => 0 < s.row.pollIntervalMs ∧ now - last < s.row.pollIntervalMs * 1000
  | none => false

/-- `_decode_state`; without a result it raises. -/
def decodeState (calls : PollCalls) : Option State :=
  match s.row.stateRef with
  | none => some d.noState
  | some _ => if calls.stateReads then s.file else none

/-- The poll comes as far as the driver. -/
def Asks (input : PollInput Polled) : Prop :=
  s.row.status = .waiting ∧ input.now < s.row.expiresAt ∧
    (input.force = true ∨ s.throttled input.now = false)

instance (input : PollInput Polled) : Decidable (s.Asks input) :=
  inferInstanceAs (Decidable (_ ∧ _))

/-- `_poll_locked`. -/
def poll (input : PollInput Polled) : PolledAttempt State :=
  if s.row.status ≠ .waiting then s
  else if s.row.expiresAt ≤ input.now then
    s.leave input.calls fun row =>
      { row with status := .expired, errorCode := some CHANNEL_PROVISIONING_EXPIRED }
  else if !input.force && s.throttled input.now then s
  else
    let s := { s with lastPollAt := some input.now }
    let raised : DriverOutcome State :=
      { status := .failed, errorCode := some CHANNEL_PROVISIONING_FAILED }
    match s.decodeState d input.calls with
    | none => s.applyOutcome input.calls raised
    | some state =>
      if input.calls.cancelled then s
      else s.applyOutcome input.calls ((d.poll input.reply state).getD raised)

def run (inputs : List (PollInput Polled)) : PolledAttempt State :=
  inputs.foldl (fun s input => s.poll d input) s

/-- While the attempt waits, the state that is kept names the task its QR code leads to. -/
def ShownIsPolled : Prop :=
  s.row.status = .waiting → ∃ ref state qr, s.row.stateRef = some ref ∧ s.file = some state ∧
    s.row.qrContent = some qr ∧ d.Shows qr state

/-- The driver brings a new state and the poll writes it. -/
def Rotates (input : PollInput Polled) : Prop :=
  s.Asks input ∧ s.row.stateRef.isSome ∧ input.calls.cancelled = false ∧
    input.calls.stateWrites = true ∧ ∃ state outcome, s.decodeState d input.calls = some state ∧
      d.poll input.reply state = some outcome ∧ outcome.status = .waiting ∧
      outcome.state.isSome

/-- The row is not left behind by a state that was written. -/
def KeepsUp (input : PollInput Polled) : Prop :=
  s.Rotates d input → input.calls.rowUpdate ≠ .raises

def KeepsUpAll : PolledAttempt State → List (PollInput Polled) → Prop
  | _, [] => True
  | s, input :: inputs => s.KeepsUp d input ∧ KeepsUpAll (s.poll d input) inputs

variable {d s}

variable {calls : PollCalls} {input : PollInput Polled}

theorem leave_shown {change : Attempt → Attempt}
    (h : s.ShownIsPolled d) (hstatus : ∀ row, (change row).status ≠ .waiting) :
    (s.leave calls change).ShownIsPolled d := by
  unfold leave
  cases hupdate : calls.rowUpdate with
  | done | raisesCommitted => exact fun hwaiting => absurd hwaiting (hstatus s.row)
  | raises => exact h

theorem fail_shown {errorCode : Option String} (h : s.ShownIsPolled d) :
    (s.fail calls errorCode).ShownIsPolled d :=
  leave_shown h fun _ => nofun

theorem applyOutcome_shown {outcome : DriverOutcome State}
    (h : s.ShownIsPolled d) (hwaits : s.row.status = .waiting)
    (hshows : outcome.status = .waiting →
      match outcome.state with
      | none => outcome.qrContent = none
      | some state => ∃ qr, outcome.qrContent = some qr ∧ qr ≠ "" ∧ d.Shows qr state)
    (hkept : outcome.status = .waiting → outcome.state.isSome → s.row.stateRef.isSome →
      calls.stateWrites = true → calls.rowUpdate ≠ .raises) :
    (s.applyOutcome calls outcome).ShownIsPolled d := by
  unfold applyOutcome
  cases hstatus : outcome.status with
  | expired => exact leave_shown h fun _ => nofun
  | succeeded =>
    dsimp only
    split_ifs
    · exact fail_shown h
    · unfold finishSucceeded
      split
      · exact leave_shown h fun _ => nofun
      · exact fail_shown h
      · exact fail_shown h
  | failed => exact fail_shown h
  | waiting =>
    have hpair := hshows hstatus
    obtain ⟨ref, old, qr, href, hfile, hqr, hold⟩ := h hwaits
    unfold rotateState
    cases hstate : outcome.state with
    | none =>
      -- nothing was rotated, so neither the file nor the QR code changes
      rw [hstate] at hpair
      have hsame : orText outcome.qrContent s.row.qrContent = s.row.qrContent := by
        rw [hpair]
        rfl
      rw [hsame]
      cases hupdate : calls.rowUpdate <;>
        exact fun _ => ⟨ref, old, qr, href, hfile, hqr, hold⟩
    | some state =>
      rw [hstate] at hpair
      obtain ⟨new, hnew, hne, hshown⟩ := hpair
      rw [href]
      dsimp only
      by_cases hwrites : calls.stateWrites = true
      · rw [if_pos hwrites]
        have hraises := hkept hstatus (by rw [hstate]; rfl) (by rw [href]; rfl) hwrites
        have htext : orText outcome.qrContent s.row.qrContent = some new := by
          rw [hnew, orText, if_neg hne]
        rw [htext]
        cases hupdate : calls.rowUpdate with
        | raises => exact absurd hupdate hraises
        | done | raisesCommitted => exact fun _ => ⟨ref, state, new, href, rfl, rfl, hshown⟩
      · rw [if_neg hwrites]
        exact fail_shown h

theorem poll_shown (h : s.ShownIsPolled d)
    (hkept : s.KeepsUp d input) : (s.poll d input).ShownIsPolled d := by
  unfold poll
  by_cases hwaits : s.row.status ≠ .waiting
  · rw [if_pos hwaits]
    exact h
  rw [if_neg hwaits]
  by_cases hexpired : s.row.expiresAt ≤ input.now
  · rw [if_pos hexpired]
    exact leave_shown h fun _ => nofun
  rw [if_neg hexpired]
  by_cases hthrottled : (!input.force && s.throttled input.now) = true
  · rw [if_pos hthrottled]
    exact h
  rw [if_neg hthrottled]
  rw [not_not] at hwaits
  have hstamped : ShownIsPolled d { s with lastPollAt := some input.now } := h
  have hasks : s.Asks input := by
    refine ⟨hwaits, Int.not_le.mp hexpired, ?_⟩
    cases hforce : input.force with
    | true => exact .inl rfl
    | false => exact .inr (by simpa [hforce] using hthrottled)
  dsimp only
  split
  · exact applyOutcome_shown hstamped hwaits nofun nofun
  · rename_i state hdecode
    split_ifs with hcancelled
    · exact hstamped
    cases hpoll : d.poll input.reply state with
    | none => exact applyOutcome_shown hstamped hwaits nofun nofun
    | some outcome =>
      apply applyOutcome_shown hstamped hwaits
      · exact d.poll_shows hpoll
      · intro hstatus hstate href hwrites
        apply hkept
        exact ⟨hasks, href, by simpa using hcancelled, hwrites, state, outcome, hdecode, hpoll,
          hstatus, hstate⟩

theorem run_shown {inputs : List (PollInput Polled)} (h : s.ShownIsPolled d)
    (hkept : KeepsUpAll d s inputs) : (s.run d inputs).ShownIsPolled d := by
  induction inputs generalizing s with
  | nil => exact h
  | cons input inputs ih => exact ih (poll_shown h hkept.1) hkept.2

theorem mem_file_leave {change : Attempt → Attempt} {state : State}
    (h : state ∈ (s.leave calls change).file) : state ∈ s.file := by
  unfold leave at h
  cases hupdate : calls.rowUpdate <;> rw [hupdate] at h
  case done =>
    dsimp only [updateProvisioning] at h
    split at h
    · cases h
    · exact h
  all_goals exact h

theorem mem_file_applyOutcome {outcome : DriverOutcome State} {state : State}
    (h : state ∈ (s.applyOutcome calls outcome).file) :
    state ∈ s.file ∨ outcome.state = some state := by
  unfold applyOutcome at h
  split at h
  · split at h
    · exact .inl (mem_file_leave h)
    · next rotated hrotated =>
      have hrotatedFile : state ∈ rotated.file := by
        cases hupdate : calls.rowUpdate <;> rw [hupdate] at h <;> exact h
      unfold rotateState at hrotated
      split at hrotated
      · next new _ hnew _ =>
        obtain ⟨-, hwritten⟩ := Option.ite_none_right_eq_some.mp hrotated
        cases hwritten
        exact .inr (hnew.trans hrotatedFile)
      · cases hrotated
        exact .inl hrotatedFile
  · exact .inl (mem_file_leave h)
  · split at h
    · exact .inl (mem_file_leave h)
    · unfold finishSucceeded at h
      split at h <;> exact .inl (mem_file_leave h)
  · exact .inl (mem_file_leave h)

/-- Whatever fails, a poll keeps the state there was or writes the one its driver brings. -/
theorem mem_file_poll {state : State} (h : state ∈ (s.poll d input).file) :
    state ∈ s.file ∨ ∃ old outcome,
      d.poll input.reply old = some outcome ∧ outcome.state = some state := by
  unfold poll at h
  split at h
  · exact .inl h
  split at h
  · exact .inl (mem_file_leave h)
  split at h
  · exact .inl h
  dsimp only at h
  split at h
  · exact .inl ((mem_file_applyOutcome h).resolve_right nofun)
  · next old _ =>
    split at h
    · exact .inl h
    cases hpoll : d.poll input.reply old with
    | none =>
      rw [hpoll] at h
      exact .inl ((mem_file_applyOutcome h).resolve_right nofun)
    | some outcome =>
      rw [hpoll] at h
      exact (mem_file_applyOutcome h).imp_right fun hstate => ⟨old, outcome, hpoll, hstate⟩

theorem mem_file_run {inputs : List (PollInput Polled)} {P : State → Prop}
    (hpoll : ∀ reply old outcome state, d.poll reply old = some outcome →
      outcome.state = some state → P state)
    (h : ∀ state ∈ s.file, P state) : ∀ state ∈ (s.run d inputs).file, P state := by
  induction inputs generalizing s with
  | nil => exact h
  | cons input inputs ih =>
    refine ih fun state hstate => ?_
    rcases mem_file_poll hstate with hold | ⟨old, outcome, houtcome, hnew⟩
    · exact h state hold
    · exact hpoll _ old outcome state houtcome hnew

theorem keepsUpAll_of_steady {inputs : List (PollInput Polled)}
    (hsteady : ∀ reply old outcome, d.poll reply old = some outcome → outcome.state = none) :
    KeepsUpAll d s inputs := by
  induction inputs generalizing s with
  | nil => trivial
  | cons input inputs ih =>
    refine ⟨fun hrotates => ?_, ih⟩
    obtain ⟨-, -, -, -, old, outcome, -, hpoll, -, hstate⟩ := hrotates
    rw [hsteady _ _ _ hpoll] at hstate
    cases hstate

/-- When the row is left behind, the state is the new one and the QR code the old one. -/
theorem poll_lost (hrotates : s.Rotates d input) (hraises : input.calls.rowUpdate = .raises) :
    (s.poll d input).row = s.row ∧ ∃ old outcome new, d.poll input.reply old = some outcome ∧
      outcome.state = some new ∧ (s.poll d input).file = some new := by
  obtain ⟨⟨hwaits, hlive, hpolled⟩, href, hcancelled, hwrites, old, outcome, hdecode, hpoll,
    hstatus, hstate⟩ := hrotates
  obtain ⟨ref, href⟩ := Option.isSome_iff_exists.mp href
  obtain ⟨new, hnew⟩ := Option.isSome_iff_exists.mp hstate
  have hthrottled : ¬ (!input.force && s.throttled input.now) = true := by
    rcases hpolled with hforce | hthrottled
    · simp [hforce]
    · simp [hthrottled]
  have hdecode : decodeState d { s with lastPollAt := some input.now } input.calls = some old :=
    hdecode
  have hlost : s.poll d input = { s with lastPollAt := some input.now, file := some new } := by
    unfold poll
    rw [if_neg (not_not.mpr hwaits), if_neg (Int.not_le.mpr hlive), if_neg hthrottled]
    dsimp only
    rw [hdecode]
    dsimp only
    rw [hcancelled, hpoll, if_neg Bool.false_ne_true, Option.getD_some]
    unfold applyOutcome rotateState
    rw [hstatus, hnew, href]
    dsimp only
    rw [if_pos hwrites, hraises]
    rfl
  rw [hlost]
  exact ⟨rfl, old, outcome, new, hpoll, hnew, rfl⟩

/-- In every run in which no row is left behind, the QR code shown is the one that is polled. -/
theorem shown_is_polled {State Begun Polled : Type} (d : ProvisioningDriver State Begun Polled)
    (reply : Begun) (session : DriverSession State) (hbegin : d.begin reply = some session)
    (channel : String) (ownerRef agentId : Option String) (ref : Nat)
    (inputs : List (PollInput Polled))
    (hkept : KeepsUpAll d (begun channel ownerRef agentId ref session) inputs) :
    ((begun channel ownerRef agentId ref session).run d inputs).ShownIsPolled d := by
  have hstart : (begun channel ownerRef agentId ref session).ShownIsPolled d :=
    fun _ => ⟨ref, session.state, session.qrContent, rfl, rfl, rfl, d.begin_shows hbegin⟩
  exact run_shown hstart hkept

section Example

def qqExample : QqProvisioningDriver where
  source := "witty-service"
  taskTtl := 300000000
  maxRefreshes := 12
  pollIntervalMs := 2000
  py := ⟨fun _ => "", fun _ => false, fun _ => none, id⟩
  decrypt _ _ := none

def qqReplies (taskId : String) (now : Int) : QqReplies where
  polled := .ok [("data", .obj [("status", .num 3 0)])]
  created := .ok [("data", .obj [("task_id", .str taskId)])]
  key := "key"
  now := now

def qqSession : DriverSession (Option QqState) where
  qrContent := QqProvisioningDriver.buildConnectUrl "first" "witty-service"
  expiresAt := 300000000
  pollIntervalMs := 2000
  state := some ⟨"first", "key", 0⟩

def rotating (rowUpdate : RowUpdate) : PollInput QqReplies where
  now := 10000000
  force := false
  calls := { PollCalls.fine with rowUpdate := rowUpdate }
  reply := qqReplies "second" 10000000

theorem qqSession_begun :
    qqExample.toDriver.begin (qqReplies "first" 0) = some qqSession := by
  rfl

def rotated (rowUpdate : RowUpdate) : PolledAttempt (Option QqState) :=
  (begun "qq_bot" none none 0 qqSession).run qqExample.toDriver [rotating rowUpdate]

theorem rotated_shown : (rotated .done).row.status = .waiting ∧
    (rotated .done).ShownIsPolled qqExample.toDriver :=
  ⟨rfl, shown_is_polled qqExample.toDriver (qqReplies "first" 0) qqSession qqSession_begun
    "qq_bot" none none 0 [rotating .done] ⟨fun _ => nofun, trivial⟩⟩

/-- After the row update has raised, the first task is shown and the second one polled. -/
theorem lost_row_not_polled :
    ¬ ∀ (driver : QqProvisioningDriver) (reply : QqReplies)
      (session : DriverSession (Option QqState)), driver.toDriver.begin reply = some session →
      ∀ (channel : String) (ownerRef agentId : Option String) (ref : Nat)
        (inputs : List (PollInput QqReplies)),
        ((begun channel ownerRef agentId ref session).run driver.toDriver inputs).ShownIsPolled
          driver.toDriver := by
  intro h
  have hlost : (rotated .raises).ShownIsPolled qqExample.toDriver :=
    h qqExample (qqReplies "first" 0) qqSession qqSession_begun "qq_bot" none none 0 _
  obtain ⟨ref, state, qr, -, hfile, hqr, hshows⟩ := hlost rfl
  have hnew : (rotated .raises).file = some (some ⟨"second", "key", 1⟩) := by rfl
  have hold : (rotated .raises).row.qrContent =
      some (QqProvisioningDriver.buildConnectUrl "first" "witty-service") := by rfl
  cases hnew.symm.trans hfile
  cases hold.symm.trans hqr
  have hdiffer : QqProvisioningDriver.buildConnectUrl "first" "witty-service" ≠
      QqProvisioningDriver.buildConnectUrl "second" "witty-service" := by decide +kernel
  exact hdiffer hshows

end Example

/-- The driver of WeCom brings no new state, so that its attempts need no condition. -/
theorem wecom_shown_is_polled {driver : WecomProvisioningDriver} {Issued : String → String → Prop}
    {reply : driver.Begun Issued} {session : DriverSession (Option String)}
    (hbegin : WecomProvisioningDriver.begin reply = some session) (channel : String)
    (ownerRef agentId : Option String) (ref : Nat)
    (inputs : List (PollInput (Except PostError Dict))) :
    ((begun channel ownerRef agentId ref session).run (driver.toDriver Issued) inputs).ShownIsPolled
      (driver.toDriver Issued) := by
  refine run_shown (fun _ => ?_) (keepsUpAll_of_steady fun _ _ _ h => ?_)
  · exact ⟨ref, session.state, session.qrContent, rfl, rfl, rfl,
      (driver.toDriver Issued).begin_shows hbegin⟩
  · exact (WecomProvisioningDriver.poll_keeps h).1

def wecomExample : WecomProvisioningDriver := ⟨qqExample.py, fun _ => true⟩

def authUrlExample : String := "https://work.weixin.qq.com/q"

def issued (scode authUrl : String) : Prop := scode = "scan" ∧ authUrl = authUrlExample

def issuedScan : wecomExample.Begun issued where
  payload := .ok [("data", .obj [("scode", .str "scan"), ("auth_url", .str authUrlExample)])]
  now := 0
  issued := by
    rintro _ _ _ ⟨⟩ ⟨⟩
    exact ⟨rfl, rfl⟩

/-- The row is not updated, and the code shown is still the one that is polled. -/
theorem scanned_shown :
    let scanned := (begun "wecom_bot" none none 0
      ⟨authUrlExample, 300000000, 3000, some "scan"⟩).run
      (wecomExample.toDriver issued)
      [⟨10000000, false, { PollCalls.fine with rowUpdate := .raises }, .ok []⟩]
    scanned.row.status = .waiting ∧ scanned.ShownIsPolled (wecomExample.toDriver issued) :=
  ⟨rfl, wecom_shown_is_polled (rfl : WecomProvisioningDriver.begin issuedScan = _) _ _ _ _ _⟩

/-- Whatever the platform answers and whatever fails, a QQ attempt keeps no task beyond its
last refresh. -/
theorem qq_refreshes_bounded {driver : QqProvisioningDriver} {replies : QqReplies}
    {session : DriverSession (Option QqState)} (hbegin : driver.begin replies = some session)
    (channel : String) (ownerRef agentId : Option String) (ref : Nat)
    (inputs : List (PollInput QqReplies)) :
    ∀ kept ∈ ((begun channel ownerRef agentId ref session).run driver.toDriver inputs).file,
      ∀ state ∈ kept, state.refreshes ≤ driver.maxRefreshes := by
  apply mem_file_run
  · intro reply old outcome kept hpoll hkept state hstate
    cases hstate
    exact QqProvisioningDriver.poll_refreshes hpoll hkept
  · unfold QqProvisioningDriver.begin at hbegin
    split at hbegin
    · cases hbegin
      rintro _ ⟨⟩ _ ⟨⟩
      exact Nat.zero_le _
    · cases hbegin

theorem rotated_refreshes : (rotated .done).file.isSome = true ∧
    ∀ kept ∈ (rotated .done).file, ∀ state ∈ kept, state.refreshes ≤ 12 :=
  ⟨rfl, qq_refreshes_bounded (rfl : qqExample.begin (qqReplies "first" 0) = some qqSession)
    "qq_bot" none none 0 [rotating .done]⟩

end PolledAttempt

end WittyService

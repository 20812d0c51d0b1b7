import AiSoc.Jobs.Store
import AiSoc.Library.PyDatetime

namespace Jobs

open Permissions (Uuid Timestamp)
open Investigation (InvestigationRow)
open PyJson (Json)

section Repository

-- the row that request_investigation gives to create
def create (id incidentId : Uuid) (now : Timestamp) : InvestigationRow where
  id := id
  incidentId := incidentId
  status := "queued"
  contextSnapshot := .obj []
  result := none
  validationErrors := []
  providerResponseIds := []
  error := none
  errorClass := none
  inputTokens := 0
  outputTokens := 0
  attemptCount := 0
  nextRetryAt := none
  queuedAt := now
  startedAt := none
  completedAt := none
  updatedAt := now

def claim (now : Timestamp) (investigation : InvestigationRow) : Option InvestigationRow :=
  if investigation.status = "queued" then
    some { investigation with
      status := "running"
      startedAt := some now
      completedAt := none
      error := none
      errorClass := none
      nextRetryAt := none
      attemptCount := investigation.attemptCount + 1
      updatedAt := now }
  else none

def requeue (resetAttempts : Bool) (now : Timestamp) (investigation : InvestigationRow) :
    InvestigationRow :=
  { investigation with
    status := "queued"
    queuedAt := now
    startedAt := none
    completedAt := none
    error := none
    errorClass := none
    nextRetryAt := none
    validationErrors := []
    attemptCount := if resetAttempts then 0 else investigation.attemptCount
    updatedAt := now }

-- now + timedelta(seconds=delay_seconds), or an OverflowError
def scheduledTime (now : Timestamp) (delaySeconds : Int) : Option Timestamp :=
  (PyDatetime.timedelta delaySeconds).bind fun delta => PyDatetime.checked (now + delta)

def scheduleRetry (delaySeconds : Int) (error errorClass : String) (now : Timestamp)
    (investigation : InvestigationRow) : Option InvestigationRow :=
  (scheduledTime now delaySeconds).map fun scheduledTime =>
    { investigation with
      status := "queued"
      queuedAt := scheduledTime
      nextRetryAt := some scheduledTime
      error := some (PyStr.slice 4000 error)
      errorClass := some errorClass
      startedAt := none
      completedAt := none
      updatedAt := now }

-- the statuses of InvestigationStatus in which nothing is left to run; no caller gives
-- fail another one than its default
inductive FinalStatus where
  | failed
  | cancelled
  | deadLetter

def FinalStatus.value : FinalStatus → String
  | .failed => "failed"
  | .cancelled => "cancelled"
  | .deadLetter => "dead_letter"

def fail (error : String) (validationErrors : Option (List String)) (errorClass : Option String)
    (status : FinalStatus) (now : Timestamp) (investigation : InvestigationRow) :
    InvestigationRow :=
  { investigation with
    status := status.value
    error := some (PyStr.slice 4000 error)
    errorClass := errorClass
    nextRetryAt := none
    validationErrors := validationErrors.getD []
    completedAt := some now
    updatedAt := now }

def cancel (now : Timestamp) (investigation : InvestigationRow) : InvestigationRow :=
  { investigation with
    status := "cancelled"
    error := some "Cancelled by analyst"
    errorClass := some "cancelled"
    nextRetryAt := none
    completedAt := some now
    updatedAt := now }

inductive Operation where
  | claim
  | requeue (resetAttempts : Bool)
  | scheduleRetry (delaySeconds : Int) (error errorClass : String)
  | checkpointContext (contextSnapshot : Json)
  | complete (contextSnapshot result : Json) (providerResponseIds : List String)
      (inputTokens outputTokens : Nat)
  | fail (error : String) (validationErrors : Option (List String)) (errorClass : Option String)
      (status : FinalStatus)
  | cancel

-- no row where the statement matches none or the values cannot be computed
def Operation.apply (now : Timestamp) (investigation : InvestigationRow) :
    Operation → Option InvestigationRow
  | .claim => Jobs.claim now investigation
  | .requeue resetAttempts => some (Jobs.requeue resetAttempts now investigation)
  | .scheduleRetry delaySeconds error errorClass =>
      Jobs.scheduleRetry delaySeconds error errorClass now investigation
  | .checkpointContext contextSnapshot =>
      some (investigation.checkpointContext contextSnapshot now)
  | .complete contextSnapshot result providerResponseIds inputTokens outputTokens =>
      some (investigation.complete contextSnapshot result providerResponseIds inputTokens
        outputTokens now)
  | .fail error validationErrors errorClass status =>
      some (Jobs.fail error validationErrors errorClass status now investigation)
  | .cancel => some (Jobs.cancel now investigation)

end Repository

section LifeCycle

structure LifeCycle (investigation : InvestigationRow) : Prop where
  queued : investigation.status = "queued" →
    investigation.startedAt = none ∧ investigation.completedAt = none
  running : investigation.status = "running" →
    (∃ now, investigation.startedAt = some now) ∧ investigation.completedAt = none ∧
      investigation.error = none ∧ investigation.errorClass = none ∧
      investigation.nextRetryAt = none
  completed : investigation.status = "completed" →
    (∃ result, investigation.result = some result) ∧
      (∃ now, investigation.completedAt = some now) ∧
      investigation.error = none ∧ investigation.errorClass = none ∧
      investigation.nextRetryAt = none ∧ investigation.validationErrors = []
  ended : investigation.status ∈ ["failed", "cancelled", "dead_letter"] →
    ∃ now, investigation.completedAt = some now
  retry : ∀ time, investigation.nextRetryAt = some time → investigation.status = "queued"

theorem lifeCycle_create (id incidentId : Uuid) (now : Timestamp) :
    LifeCycle (create id incidentId now) where
  queued := fun _ => ⟨rfl, rfl⟩
  running := by simp [create]
  completed := by simp [create]
  ended := by simp [create]
  retry := by simp [create]

theorem lifeCycle_claim {now : Timestamp} {investigation row : InvestigationRow}
    (h : claim now investigation = some row) : LifeCycle row := by
  rw [claim] at h
  split at h
  · obtain rfl := Option.some.inj h
    exact {
      queued := by simp
      running := fun _ => ⟨⟨now, rfl⟩, rfl, rfl, rfl, rfl⟩
      completed := by simp
      ended := by simp
      retry := by simp }
  · cases h

theorem lifeCycle_requeue (resetAttempts : Bool) (now : Timestamp)
    (investigation : InvestigationRow) : LifeCycle (requeue resetAttempts now investigation) where
  queued := fun _ => ⟨rfl, rfl⟩
  running := by simp [requeue]
  completed := by simp [requeue]
  ended := by simp [requeue]
  retry := by simp [requeue]

theorem lifeCycle_scheduleRetry {delaySeconds : Int} {error errorClass : String}
    {now : Timestamp} {investigation row : InvestigationRow}
    (h : scheduleRetry delaySeconds error errorClass now investigation = some row) :
    LifeCycle row := by
  obtain ⟨time, _, rfl⟩ := Option.map_eq_some_iff.mp h
  exact {
    queued := fun _ => ⟨rfl, rfl⟩
    running := by simp
    completed := by simp
    ended := by simp
    retry := fun _ _ => rfl }

theorem LifeCycle.checkpointContext {investigation : InvestigationRow}
    (h : LifeCycle investigation) (contextSnapshot : Json) (now : Timestamp) :
    LifeCycle (investigation.checkpointContext contextSnapshot now) where
  queued := h.queued
  running := h.running
  completed := h.completed
  ended := h.ended
  retry := h.retry

theorem lifeCycle_complete (contextSnapshot result : Json) (providerResponseIds : List String)
    (inputTokens outputTokens : Nat) (now : Timestamp) (investigation : InvestigationRow) :
    LifeCycle (investigation.complete contextSnapshot result providerResponseIds inputTokens
      outputTokens now) where
  queued := by simp [InvestigationRow.complete]
  running := by simp [InvestigationRow.complete]
  completed := fun _ => ⟨⟨result, rfl⟩, ⟨now, rfl⟩, rfl, rfl, rfl, rfl⟩
  ended := by simp [InvestigationRow.complete]
  retry := by simp [InvestigationRow.complete]

theorem FinalStatus.value_mem (status : FinalStatus) :
    status.value ∈ ["failed", "cancelled", "dead_letter"] := by
  cases status <;> simp [FinalStatus.value]

theorem lifeCycle_of_ended {investigation : InvestigationRow} {now : Timestamp}
    (hstatus : investigation.status ∈ ["failed", "cancelled", "dead_letter"])
    (hcompleted : investigation.completedAt = some now)
    (hretry : investigation.nextRetryAt = none) : LifeCycle investigation where
  queued := by
    intro h
    rw [h] at hstatus
    simp at hstatus
  running := by
    intro h
    rw [h] at hstatus
    simp at hstatus
  completed := by
    intro h
    rw [h] at hstatus
    simp at hstatus
  ended := fun _ => ⟨now, hcompleted⟩
  retry := by
    intro time htime
    rw [hretry] at htime
    cases htime

theorem lifeCycle_fail (error : String) (validationErrors : Option (List String))
    (errorClass : Option String) (status : FinalStatus) (now : Timestamp)
    (investigation : InvestigationRow) :
    LifeCycle (fail error validationErrors errorClass status now investigation) :=
  lifeCycle_of_ended status.value_mem rfl rfl

theorem lifeCycle_cancel (now : Timestamp) (investigation : InvestigationRow) :
    LifeCycle (cancel now investigation) := by
  have hstatus : (cancel now investigation).status ∈ ["failed", "cancelled", "dead_letter"] := by
    simp [cancel]
  exact lifeCycle_of_ended hstatus rfl rfl

theorem LifeCycle.apply {now : Timestamp} {investigation row : InvestigationRow}
    {operation : Operation} (h : LifeCycle investigation)
    (hrow : operation.apply now investigation = some row) : LifeCycle row := by
  cases operation with
  | claim => exact lifeCycle_claim hrow
  | requeue resetAttempts =>
      obtain rfl := Option.some.inj hrow
      exact lifeCycle_requeue _ _ _
  | scheduleRetry delaySeconds error errorClass => exact lifeCycle_scheduleRetry hrow
  | checkpointContext contextSnapshot =>
      obtain rfl := Option.some.inj hrow
      exact h.checkpointContext _ _
  | complete contextSnapshot result providerResponseIds inputTokens outputTokens =>
      obtain rfl := Option.some.inj hrow
      exact lifeCycle_complete _ _ _ _ _ _ _
  | fail error validationErrors errorClass status =>
      obtain rfl := Option.some.inj hrow
      exact lifeCycle_fail _ _ _ _ _ _
  | cancel =>
      obtain rfl := Option.some.inj hrow
      exact lifeCycle_cancel _ _

end LifeCycle

section Runs

-- the row with the operations that took effect on it, the last one first
structure Tracked where
  investigation : InvestigationRow
  effective : List Operation

def claimsSinceReset : List Operation → Nat
  | [] => 0
  | .claim :: operations => claimsSinceReset operations + 1
  | .requeue true :: _ => 0
  | _ :: operations => claimsSinceReset operations

-- a row the columns do not hold is an error of the flush, and is rolled back
def Tracked.step (holds : InvestigationRow → Bool) (tracked : Tracked)
    (call : Timestamp × Operation) : Tracked :=
  match call.2.apply call.1 tracked.investigation with
  | none => tracked
  | some row => if holds row then ⟨row, call.2 :: tracked.effective⟩ else tracked

def Tracked.run (holds : InvestigationRow → Bool) (tracked : Tracked)
    (calls : List (Timestamp × Operation)) : Tracked :=
  calls.foldl (Tracked.step holds) tracked

structure Tracked.Sound (tracked : Tracked) : Prop where
  lifeCycle : LifeCycle tracked.investigation
  attempts : tracked.investigation.attemptCount = claimsSinceReset tracked.effective

theorem attemptCount_apply {now : Timestamp} {investigation row : InvestigationRow}
    {operation : Operation} {effective : List Operation}
    (hrow : operation.apply now investigation = some row)
    (h : investigation.attemptCount = claimsSinceReset effective) :
    row.attemptCount = claimsSinceReset (operation :: effective) := by
  cases operation with
  | claim =>
      have hrow : claim now investigation = some row := hrow
      rw [claim] at hrow
      split at hrow
      · obtain rfl := Option.some.inj hrow
        simp only [claimsSinceReset, h]
      · cases hrow
  | requeue resetAttempts =>
      obtain rfl := Option.some.inj hrow
      cases resetAttempts with
      | false => exact h
      | true => rfl
  | scheduleRetry delaySeconds error errorClass =>
      obtain ⟨_, _, rfl⟩ := Option.map_eq_some_iff.mp hrow
      exact h
  | checkpointContext contextSnapshot =>
      obtain rfl := Option.some.inj hrow
      exact h
  | complete contextSnapshot result providerResponseIds inputTokens outputTokens =>
      obtain rfl := Option.some.inj hrow
      exact h
  | fail error validationErrors errorClass status =>
      obtain rfl := Option.some.inj hrow
      exact h
  | cancel =>
      obtain rfl := Option.some.inj hrow
      exact h

theorem Tracked.Sound.step {tracked : Tracked} (h : tracked.Sound)
    (holds : InvestigationRow → Bool) (call : Timestamp × Operation) :
    (tracked.step holds call).Sound := by
  rw [Tracked.step]
  split
  · exact h
  · rename_i row hrow
    split
    · exact ⟨h.lifeCycle.apply hrow, attemptCount_apply hrow h.attempts⟩
    · exact h

theorem Tracked.Sound.run {tracked : Tracked} (h : tracked.Sound)
    (holds : InvestigationRow → Bool) (calls : List (Timestamp × Operation)) :
    (tracked.run holds calls).Sound := by
  induction calls generalizing tracked with
  | nil => exact h
  | cons call calls ih => exact ih (h.step holds call)

theorem status_determines_fields (holds : InvestigationRow → Bool) (id incidentId : Uuid)
    (now : Timestamp) (calls : List (Timestamp × Operation)) :
    let tracked := Tracked.run holds ⟨create id incidentId now, []⟩ calls
    LifeCycle tracked.investigation ∧
      tracked.investigation.attemptCount = claimsSinceReset tracked.effective := by
  have hstart : Tracked.Sound ⟨create id incidentId now, []⟩ := ⟨lifeCycle_create _ _ _, rfl⟩
  have hrun := hstart.run holds calls
  exact ⟨hrun.lifeCycle, hrun.attempts⟩

end Runs

end Jobs

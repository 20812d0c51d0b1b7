import AiSoc.Correlation.Totality
import AiSoc.Events.Normalizer
import AiSoc.Library.Budget
import AiSoc.Library.Except

namespace Events

open Permissions (Timestamp)
open Correlation (Alert Database cloudFindingId allowedRules candidateAlerts newEventId truthyText)
open PyDatetime

-- accepts is what PostgreSQL requires of a row besides, such as texts without a zero character
structure Env extends Correlation.Env where
  mlAggregationWindowSeconds : Int := 300
  accepts : Event → Bool

section Windows

variable (env : Env)

-- the seconds that a rule looks back from the event, none where it returns before

def bruteForceWindow (event : Event) : Option Int :=
  if event.eventType ≠ "login_failure" ∨ truthyText event.sourceIp = none then none
  else some env.settings.bruteForceWindowSeconds

def passwordSprayWindow (event : Event) : Option Int :=
  if event.eventType ≠ "login_failure" ∨ truthyText event.sourceIp = none then none
  else some env.settings.passwordSprayWindowSeconds

def privilegeChangeWindow (event : Event) : Option Int :=
  if event.eventType ≠ "privilege_change" then none
  else some env.settings.privilegeChangeLookbackSeconds

def loginAfterFailuresWindow (event : Event) : Option Int :=
  if event.eventType ≠ "login_success" then none
  else some env.settings.loginAfterFailuresWindowSeconds

-- without an active model the rule does not match
def mlAnomalyWindow (mlActive : Bool) : Option Int :=
  if mlActive then some env.mlAggregationWindowSeconds else none

-- in the order of the registry; two rules look at the event only
def ruleWindows (mlActive : Bool) (event : Event) : List (Option Int) :=
  [bruteForceWindow env event, passwordSprayWindow env event, privilegeChangeWindow env event,
    none, loginAfterFailuresWindow env event, mlAnomalyWindow env mlActive, none]

def lookbacks (mlActive : Bool) (event : Event) : Option (List Timestamp) :=
  (ruleWindows env mlActive event).reduceOption.mapM (subtractSeconds event.timestamp)

-- the seconds that the correlation of an alert goes back, or ahead, from its times
def correlationWindows (db : Database) (alert : Alert) : List (Timestamp × Int) :=
  if alert.ruleId = cloudFindingId then
    [(alert.firstSeen, 90 * 86400), (alert.lastSeen, -1)]
  else if alert.ruleId ∉ allowedRules then []
  else
    (alert.lastSeen, env.settings.credentialCompromiseLookbackSeconds) ::
      if candidateAlerts env.toEnv db alert = [] then []
      else [(alert.lastSeen, env.settings.incidentMergeWindowSeconds)]

end Windows

section Columns

-- Integer
def int4 (n : Int) : Bool :=
  decide (-2147483648 ≤ n ∧ n ≤ 2147483647)

def integerColumns (event : Event) : List (Option Int) :=
  [event.sourcePort, event.destinationPort, event.bytesSent, event.bytesReceived]

def columnsFit (event : Event) : Bool :=
  (integerColumns event).all fun column => column.all int4

end Columns

section Service

inductive Overflow where
  | timestamp
  | column
  | lookback
  | correlation
  deriving DecidableEq

inductive Failure where
  | overflow (reason : Overflow)
  | refused
  | raised
  deriving DecidableEq

variable (env : Env)

def normalized (payload : EventCreate) : Except Failure Event :=
  match normalize payload with
  | none => .error (.overflow .timestamp)
  | some event => .ok event

-- the unique index on the event ids, and what else the database requires
def refused (db : Database) (event : Event) : Bool :=
  decide (newEventId env.toEnv db event.toEventCreate ∈ db.events.map (·.eventId)) ||
    !env.accepts event

def correlateAlert (db : Database) (alert : Alert) : Except Failure Database :=
  match (correlationWindows env db alert).mapM fun p => subtractSeconds p.1 p.2 with
  | none => .error (.overflow .correlation)
  | some _ =>
      match Correlation.correlateAlert env.toEnv db alert with
      | none => .error .raised
      | some db' => .ok db'

-- the insertion of the row, its rules and the correlation of their alerts
def ingest (mlActive : Bool) (db : Database) (event : Event) : Except Failure Database :=
  if columnsFit event = false then .error (.overflow .column)
  else if refused env db event then .error .refused
  else
    match lookbacks env mlActive event with
    | none => .error (.overflow .lookback)
    | some _ =>
        match Correlation.runDetection env.toEnv db event.toEventCreate with
        | none => .error .raised
        | some (db', alerts) => alerts.foldlM (correlateAlert env) db'

def createEvent (mlActive : Bool) (db : Database) (payload : EventCreate) :
    Except Failure Database := do
  let event ← normalized payload
  ingest env mlActive db event

-- each payload with whether a model is active when its rules run
abbrev Submission := EventCreate × Bool

def createEventsBulk (db : Database) (payloads : List Submission) : Except Failure Database := do
  let events ← payloads.mapM fun p => (normalized p.1).map fun event => (event, p.2)
  events.foldlM (fun db p => ingest env p.2 db p.1) db

inductive Request where
  | createEvent (mlActive : Bool) (payload : EventCreate)
  | createEventsBulk (payloads : List Submission)
  | createManualIncident (payload : Correlation.IncidentCreate)

-- a request that raises commits nothing
def step (db : Database) : Request → Option Database
  | .createEvent mlActive payload => (createEvent env mlActive db payload).toOption
  | .createEventsBulk payloads => (createEventsBulk env db payloads).toOption
  | .createManualIncident payload => some (Correlation.createManualIncident env.toEnv db payload)

end Service

section Arithmetic

theorem subtractSeconds_iff {t since : Int} (hrange : -86400 ≤ since ∧ since ≤ 90 * 86400) :
    (∃ u, subtractSeconds t since = some u) ↔
      minimum + since * 1000000 ≤ t ∧ t - since * 1000000 ≤ maximum := by
  have hdelta : timedelta since = some (since * 1000000) := by
    rw [timedelta, if_pos (by omega)]
  rw [subtractSeconds, hdelta, Option.bind_some]
  simp only [checked_eq_some]
  constructor
  · rintro ⟨u, hmin, hmax, _⟩
    exact ⟨by omega, hmax⟩
  · rintro ⟨hmin, hmax⟩
    exact ⟨_, by omega, hmax, rfl⟩

theorem subtractSeconds_past {t since : Int} (hrange : 0 ≤ since ∧ since ≤ 90 * 86400)
    (ht : t ≤ maximum) : (∃ u, subtractSeconds t since = some u) ↔
      minimum + since * 1000000 ≤ t := by
  rw [subtractSeconds_iff (by omega)]
  exact and_iff_left (by omega)

end Arithmetic

end Events

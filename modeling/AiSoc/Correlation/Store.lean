import AiSoc.Correlation.Identity
import AiSoc.Correlation.Timeline
import AiSoc.Library.Query

namespace Correlation

open Permissions (Uuid Timestamp)
open Investigation (AlertRow EventRow IncidentRow)

scoped instance : LawfulBEq (Uuid × Uuid) := inferInstance
open PyJson PyStr Query

structure Event extends EventRow where
  metadata : Obj

structure Incident extends IncidentRow where
  correlationKey : String

structure Settings where
  bruteForceThreshold : Int := 10
  bruteForceWindowSeconds : Int := 60
  passwordSprayUniqueUsers : Int := 5
  passwordSprayWindowSeconds : Int := 300
  privilegeChangeLookbackSeconds : Int := 900
  largeDownloadThresholdBytes : Int := 1000000
  loginAfterFailuresThreshold : Int := 3
  loginAfterFailuresWindowSeconds : Int := 900
  credentialCompromiseLookbackSeconds : Int := 1800
  incidentMergeWindowSeconds : Int := 3600
  riskScoreHighSeverityWeight : Int := 20
  riskScoreMediumSeverityWeight : Int := 10
  riskScoreLowSeverityWeight : Int := 5
  riskScoreConfidenceMultiplier : Int := 20
  riskScoreComboBonus : Int := 15
  riskScoreSupportingBonus : Int := 10

structure AnomalyScore where
  score : PyFloat
  threshold : PyFloat
  modelVersion : String
  featureVersion : String
  features : Json

-- scoreEvent is the anomaly model over the stored events, none where it raises
structure Env where
  settings : Settings
  text : PyText
  lower_empty : text.lower "" = ""
  scan : Scan
  clock : Uuid → Timestamp
  uuid4 : Uuid → Uuid
  scoreEvent : List Event → Event → Option (Option AnomalyScore)
  anomalyConfidence : PyFloat → PyFloat → PyFloat
  fixed4 : PyFloat → String
  confidenceScore : List PyFloat → Int → Int
  redactSecrets : String → String

def seconds (n : Int) : Int := n * 1000000

def days (n : Int) : Int := seconds (86400 * n)

structure Database where
  events : List Event
  alerts : List Alert
  incidents : List Incident
  links : List (Uuid × Uuid)
  nextId : Uuid

namespace Database

def empty : Database := ⟨[], [], [], [], 0⟩

variable (env : Env) (db : Database)

section Events

-- event_id is unique
def createEvent (event : Event) : Option Database :=
  if event.eventId ∈ db.events.map (·.eventId) then none
  else some { db with events := db.events ++ [event], nextId := db.nextId + 1 }

def eventById (id : Uuid) : Option Event :=
  db.events.find? fun event => event.id = id

def getByIds (ids : List Uuid) (id : Uuid) : Option Event :=
  if id ∈ ids then db.eventById id else none

def isLoginFailure (since til : Timestamp) (event : Event) : Bool :=
  event.eventType = "login_failure" ∧ since ≤ event.timestamp ∧ event.timestamp ≤ til

def recentLoginFailuresBySourceIp (sourceIp : String) (since til : Timestamp) : List Event :=
  select env.scan db.events
    (fun event => isLoginFailure since til event && event.sourceIp = some sourceIp)
    fun a b => a.timestamp ≤ b.timestamp

def distinctUsernamesForFailuresBySourceIp (sourceIp : String) (since til : Timestamp) :
    List String :=
  ((db.events.filter fun event =>
    isLoginFailure since til event && event.sourceIp = some sourceIp).filterMap
      (·.username)).dedup

-- a missing identity adds no clause
def sameIdentity (username sourceIp : Option String) (rowUsername rowSourceIp : Option String) :
    Bool :=
  (username.isSome && rowUsername = username) || (sourceIp.isSome && rowSourceIp = sourceIp)

def recentLoginFailuresForIdentity (username sourceIp : Option String) (since til : Timestamp) :
    List Event :=
  select env.scan db.events
    (fun event => isLoginFailure since til event &&
      sameIdentity username sourceIp event.username event.sourceIp)
    fun a b => a.timestamp ≤ b.timestamp

end Events

section Alerts

def relatedAlerts (username sourceIp : Option String) (since til : Timestamp) : List Alert :=
  select env.scan db.alerts
    (fun alert => decide (since ≤ alert.lastSeen ∧ alert.lastSeen ≤ til) &&
      sameIdentity username sourceIp alert.username alert.sourceIp)
    alertBefore

end Alerts

section Incidents

def createIncident (incident : Uuid → Incident) : Database × Incident :=
  ({ db with incidents := db.incidents ++ [incident db.nextId], nextId := db.nextId + 1 },
    incident db.nextId)

def addAlertLinks (incidentId : Uuid) (alertIds : List Uuid) : Database :=
  { db with
    links := db.links ++
      (alertIds.filter fun id => (incidentId, id) ∉ db.links).map fun id => (incidentId, id) }

def updateIncident (incident : Incident) : Database :=
  { db with
    incidents := db.incidents.map fun row => if row.id = incident.id then incident else row }

def identifies (correlationKey : String) (username sourceIp : Option String) (row : Incident) :
    Bool :=
  row.correlationKey = correlationKey ||
    sameIdentity username sourceIp row.primaryUsername row.primarySourceIp

def isOpenRelated (correlationKey : String) (username sourceIp : Option String)
    (since til : Timestamp) (row : Incident) : Bool :=
  row.status = "open" && identifies correlationKey username sourceIp row &&
    decide (since ≤ row.lastSeen ∧ row.lastSeen ≤ til)

-- ORDER BY last_seen DESC
def newestFirst (a b : Incident) : Prop :=
  b.lastSeen ≤ a.lastSeen

instance : DecidableRel newestFirst :=
  fun a b => inferInstanceAs (Decidable (b.lastSeen ≤ a.lastSeen))

def findOpenRelatedIncident (correlationKey : String) (username sourceIp : Option String)
    (since til : Timestamp) : Option Incident :=
  selectFirst env.scan db.incidents (isOpenRelated correlationKey username sourceIp since til)
    newestFirst

def alertsForIncident (incidentId : Uuid) : List Alert :=
  select env.scan db.alerts (fun alert => (incidentId, alert.id) ∈ db.links) alertBefore

end Incidents

end Database

end Correlation

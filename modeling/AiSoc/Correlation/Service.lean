import AiSoc.Correlation.Detection
import Mathlib.Data.List.MinMax

namespace Correlation

open Permissions (Uuid Timestamp)
open Investigation (EventRow)
open PyJson PyStr Database

section RiskScoring

def severityWeight (settings : Settings) (severity : String) : Int :=
  if severity = "critical" then settings.riskScoreHighSeverityWeight + 10
  else if severity = "high" then settings.riskScoreHighSeverityWeight
  else if severity = "medium" then settings.riskScoreMediumSeverityWeight
  else settings.riskScoreLowSeverityWeight

def comboBonus (settings : Settings) (ruleIds : List String) : Int :=
  (if loginAfterFailuresId ∈ ruleIds ∧ (bruteForceId ∈ ruleIds ∨ passwordSprayId ∈ ruleIds) then
    settings.riskScoreComboBonus else 0) +
  (if suspiciousPrivilegeChangeId ∈ ruleIds ∨ largeDownloadId ∈ ruleIds then
    settings.riskScoreSupportingBonus else 0)

def score (env : Env) (alerts : List Alert) : Int :=
  if alerts.isEmpty then 0
  else
    let severityScore := (alerts.map fun alert => severityWeight env.settings alert.severity).sum
    let confidenceScore := env.confidenceScore (alerts.map (·.confidence))
      env.settings.riskScoreConfidenceMultiplier
    let rawScore := severityScore + confidenceScore +
      comboBonus env.settings (alerts.map (·.ruleId))
    max 0 (min 100 rawScore)

def severityFromScore (score : Int) : String :=
  if 85 ≤ score then "critical"
  else if 65 ≤ score then "high"
  else if 35 ≤ score then "medium"
  else "low"

end RiskScoring

section Candidates

def allowedRules : List String :=
  [bruteForceId, passwordSprayId, suspiciousPrivilegeChangeId, largeDownloadId,
    loginAfterFailuresId]

def credentialCompromiseCandidates (alerts : List Alert) : List Alert :=
  let ruleIds := alerts.map (·.ruleId)
  if (bruteForceId ∈ ruleIds ∨ passwordSprayId ∈ ruleIds) ∧ loginAfterFailuresId ∈ ruleIds then
    alerts.filter fun alert => alert.ruleId ∈ allowedRules
  else []

def truthyText (value : Option String) : Option String :=
  value.filter (· ≠ "")

def firstPresent (values : List (Option String)) : Option String :=
  values.findSome? truthyText

-- the first value of the first preferred rule that has one, else the first value at all
def selectPrimary (preferredRules : List String) (value : Alert → Option String)
    (alerts : List Alert) : Option String :=
  (preferredRules.findSome? fun rule =>
    firstPresent ((alerts.filter fun alert => alert.ruleId = rule).map value)).or
      (firstPresent (alerts.map value))

def selectPrimaryUsername (alerts : List Alert) : Option String :=
  selectPrimary [loginAfterFailuresId, suspiciousPrivilegeChangeId, largeDownloadId]
    (·.username) alerts

def selectPrimarySourceIp (alerts : List Alert) : Option String :=
  selectPrimary [loginAfterFailuresId, suspiciousPrivilegeChangeId, largeDownloadId, bruteForceId,
    passwordSprayId] (·.sourceIp) alerts

end Candidates

section Correlate

variable (env : Env) (db : Database)

def lookback (alert : Alert) : Timestamp :=
  alert.lastSeen - seconds env.settings.credentialCompromiseLookbackSeconds

def mergeSince (alert : Alert) : Timestamp :=
  alert.lastSeen - seconds env.settings.incidentMergeWindowSeconds

def relatedWith (alert : Alert) : List Alert :=
  let related := db.relatedAlerts env alert.username alert.sourceIp (lookback env alert)
    alert.lastSeen
  if alert.id ∈ related.map (·.id) then related else related ++ [alert]

def candidateAlerts (alert : Alert) : List Alert :=
  credentialCompromiseCandidates (relatedWith env db alert)

def incidentTimeline (db : Database) (linked : List Alert) : List Obj :=
  (buildIncidentTimeline linked
    fun id => (db.getByIds (linked.map (·.eventId)) id).map (·.toEventRow)).map (·.toJson)

def credentialIncident (correlationKey : String) (username sourceIp : Option String)
    (firstSeen lastSeen : Timestamp) (id : Uuid) : Incident where
  id := id
  title := "Credential compromise incident"
  description :=
    "Correlated attack activity indicates a likely credential compromise sequence."
  status := "open"
  severity := "low"
  riskScore := 0
  correlationKey := correlationKey
  primaryUsername := username
  primarySourceIp := sourceIp
  firstSeen := firstSeen
  lastSeen := lastSeen
  timeline := []

-- the fields of the row that the credential path computes from the linked alerts
def refreshCredential (correlationKey : String) (username sourceIp : Option String)
    (linked : List Alert) (firstSeen lastSeen : Timestamp) (incident : Incident) : Incident :=
  { incident with
    severity := severityFromScore (score env linked)
    riskScore := score env linked
    correlationKey := correlationKey
    primaryUsername := (truthyText username).or incident.primaryUsername
    primarySourceIp := (truthyText sourceIp).or incident.primarySourceIp
    firstSeen := firstSeen
    lastSeen := lastSeen
    timeline := incidentTimeline db linked
    description :=
      "Correlated attack activity indicates a likely credential compromise sequence." }

def correlateCandidates (alert : Alert) (candidates : List Alert) : Option Database := do
  let username := selectPrimaryUsername candidates
  let sourceIp := selectPrimarySourceIp candidates
  let correlationKey := buildCorrelationKey env.text username sourceIp
  let found := db.findOpenRelatedIncident env correlationKey username sourceIp
    (mergeSince env alert) alert.lastSeen
  let (db, incident) ← match found with
    | some incident => some (db, incident)
    | none => do
        let firstSeen ← (candidates.map (·.firstSeen)).min?
        let lastSeen ← (candidates.map (·.lastSeen)).max?
        some (db.createIncident
          (credentialIncident correlationKey username sourceIp firstSeen lastSeen))
  let db := db.addAlertLinks incident.id (candidates.map (·.id))
  let linked := db.alertsForIncident env incident.id
  let firstSeen ← (linked.map (·.firstSeen)).min?
  let lastSeen ← (linked.map (·.lastSeen)).max?
  some (db.updateIncident (refreshCredential env db correlationKey username sourceIp linked
    firstSeen lastSeen incident))

def findingScores : List (String × Int) :=
  [("low", 25), ("medium", 50), ("high", 75), ("critical", 95)]

def providerId (event : Event) : String :=
  metadataText env.text event.metadata "provider_finding_id" event.eventId

def accountId (event : Event) : String :=
  metadataText env.text event.metadata "account_id" "local"

def eventFindingKey (event : Event) : String :=
  findingKey (accountId env event) (providerId env event)

def findingIncident (alert : Alert) (correlationKey : String) (riskScore : Int) (id : Uuid) :
    Incident where
  id := id
  title := alert.title
  description := alert.description
  status := "open"
  severity := alert.severity
  riskScore := riskScore
  correlationKey := correlationKey
  primaryUsername := alert.username
  primarySourceIp := alert.sourceIp
  firstSeen := alert.firstSeen
  lastSeen := alert.lastSeen
  timeline := []

-- first_seen is not among the fields that the finding path computes
def refreshFinding (linked : List Alert) (topScore : Int) (lastSeen : Timestamp)
    (incident : Incident) : Incident :=
  { incident with
    timeline := incidentTimeline db linked
    riskScore := max (score env linked) topScore
    severity := severityFromScore (max (score env linked) topScore)
    lastSeen := lastSeen }

def findingSince (alert : Alert) : Timestamp :=
  alert.firstSeen - days 90

def findingUntil (alert : Alert) : Timestamp :=
  alert.lastSeen + seconds 1

def correlateCloudFinding (alert : Alert) : Option Database := do
  let event ← db.getByIds [alert.eventId] alert.eventId
  let correlationKey := eventFindingKey env event
  let found := db.findOpenRelatedIncident env correlationKey none none (findingSince alert)
    (findingUntil alert)
  let (db, incident) ← match found with
    | some incident => some (db, incident)
    | none => do
        let riskScore ← findingScores.lookup alert.severity
        some (db.createIncident (findingIncident alert correlationKey riskScore))
  let db := db.addAlertLinks incident.id [alert.id]
  let linked := db.alertsForIncident env incident.id
  let severityScores ← linked.mapM fun item => findingScores.lookup item.severity
  let topScore ← severityScores.max?
  let lastSeen ← (linked.map (·.lastSeen)).max?
  some (db.updateIncident (refreshFinding env db linked topScore lastSeen incident))

def correlateAlert (alert : Alert) : Option Database :=
  if alert.ruleId = cloudFindingId then correlateCloudFinding env db alert
  else if alert.ruleId ∉ allowedRules then some db
  else
    match candidateAlerts env db alert with
    | [] => some db
    | candidate :: candidates => correlateCandidates env db alert (candidate :: candidates)

def correlate (alerts : List Alert) : Option Database :=
  alerts.foldlM (correlateAlert env) db

-- the advisory locks that the correlation of an alert takes, in order
def correlationLocks (alert : Alert) : List String :=
  if alert.ruleId = cloudFindingId then
    match db.getByIds [alert.eventId] alert.eventId with
    | some event => [eventFindingKey env event]
    | none => []
  else if alert.ruleId ∉ allowedRules then []
  else
    match candidateAlerts env db alert with
    | [] => []
    | candidate :: candidates =>
        buildIdentityLockKeys env.text (selectPrimaryUsername (candidate :: candidates))
          (selectPrimarySourceIp (candidate :: candidates))

end Correlate

section Ingestion

structure EventCreate where
  eventId : Option String
  timestamp : Timestamp
  source : String
  sourceType : String
  eventType : String
  category : String
  severity : Option String
  username : Option String
  sourceIp : Option String
  destinationIp : Option String
  hostname : Option String
  action : Option String
  status : Option String
  resource : Option String
  bytesSent : Option Int
  bytesReceived : Option Int
  metadata : Obj

def normalizeEvent (env : Env) (id : Uuid) (payload : EventCreate) : Event where
  id := id
  eventId := orDefault payload.eventId ("evt_" ++ String.ofList (hexText 32 (env.uuid4 id)))
  timestamp := payload.timestamp
  source := payload.source
  sourceType := payload.sourceType
  eventType := payload.eventType
  category := payload.category
  severity := payload.severity
  username := payload.username
  sourceIp := payload.sourceIp
  destinationIp := payload.destinationIp
  hostname := payload.hostname
  action := payload.action
  status := payload.status
  resource := payload.resource
  bytesSent := payload.bytesSent
  bytesReceived := payload.bytesReceived
  metadata := payload.metadata

-- the insertion of an event and the alerts of its rules
def runDetection (env : Env) (db : Database) (payload : EventCreate) :
    Option (Database × List Alert) := do
  let event := normalizeEvent env db.nextId payload
  let db ← db.createEvent event
  let results ← evaluateEvent env db event
  let alerts := buildAlerts env event db.nextId results
  some (db.createAlerts alerts, alerts)

def ingestEvent (env : Env) (db : Database) (payload : EventCreate) : Option Database := do
  let (db, alerts) ← runDetection env db payload
  correlate env db alerts

def createEventsBulk (env : Env) (db : Database) (payloads : List EventCreate) :
    Option Database :=
  payloads.foldlM (ingestEvent env) db

structure IncidentCreate where
  title : String
  description : String
  severity : String
  primaryUsername : Option String
  primarySourceIp : Option String
  presetScenario : String

def manualScores : List (String × Int) :=
  [("low", 30), ("medium", 55), ("high", 80), ("critical", 95)]

def manualKey (env : Env) (payload : IncidentCreate) (id : Uuid) : String :=
  "manual:" ++ orDefault payload.primaryUsername "unknown" ++ ":" ++
    orDefault payload.primarySourceIp "unknown" ++ ":" ++
    slice 6 (String.ofList (hexText 32 (env.uuid4 id)))

def manualIncident (env : Env) (payload : IncidentCreate) (id : Uuid) : Incident :=
  let now := env.clock id
  let title := env.redactSecrets payload.title
  let description := env.redactSecrets payload.description
  { id := id
    title := title
    description := description
    status := "open"
    severity := payload.severity
    riskScore := (manualScores.lookup payload.severity).getD 75
    correlationKey := manualKey env payload id
    primaryUsername := payload.primaryUsername
    primarySourceIp := payload.primarySourceIp
    firstSeen := now
    lastSeen := now
    timeline := [createdEntry now title description payload.primaryUsername
      payload.primarySourceIp payload.presetScenario] }

def createManualIncident (env : Env) (db : Database) (payload : IncidentCreate) : Database :=
  (db.createIncident (manualIncident env payload)).1

-- each request is one transaction, which commits nothing where it raises
inductive Request where
  | createEvent (payload : EventCreate)
  | createEventsBulk (payloads : List EventCreate)
  | createManualIncident (payload : IncidentCreate)

def handle (env : Env) (db : Database) : Request → Option Database
  | .createEvent payload => ingestEvent env db payload
  | .createEventsBulk payloads => createEventsBulk env db payloads
  | .createManualIncident payload => some (createManualIncident env db payload)

end Ingestion

end Correlation

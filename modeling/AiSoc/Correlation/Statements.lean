import AiSoc.Correlation.Service
import AiSoc.Library.JsonCode
import AiSoc.Library.ReadCommitted

namespace Correlation.Statements

open Permissions (Uuid Timestamp)
open PyStr Database ReadCommitted
open ReadCommitted.Program (acquire acquireAll ask fail ofOption put sequence)

deriving instance DecidableEq for Investigation.AlertRow, Investigation.EventRow,
  Investigation.IncidentRow, Alert, Event, Incident, DetectionResult

-- what a transaction holds until its end: an advisory lock, its entry in the unique index of the
-- event identifiers, and the version of an incident row that it has written
inductive Key (H : Type) where
  | advisory (hash : H)
  | eventId (eventId : String)
  | incident (id : Uuid)
  deriving DecidableEq

variable {H : Type} (env : Env) (hash : String → H)

abbrev Ingest (H A : Type) := Program Database (Key H) A

section Detection

-- the insertion waits for a transaction that has inserted the same event_id
def createEvent (payload : EventCreate) : Ingest H Event := do
  let event ← ask fun db => normalizeEvent env db.nextId payload
  acquire (.eventId event.eventId)
  let taken ← ask fun db => decide (event.eventId ∈ db.events.map (·.eventId))
  if taken then fail
  else do
    put fun db => { db with events := db.events ++ [event], nextId := db.nextId + 1 }
    pure event

-- a rule with a single query
def evaluate (rule : Rule) (event : Event) : Ingest H (Option DetectionResult) :=
  ask (fun db => rule env db event) >>= ofOption

def passwordSpray (event : Event) : Ingest H (Option DetectionResult) :=
  match event.sourceIp with
  | none => pure none
  | some sourceIp =>
      if event.eventType ≠ "login_failure" ∨ sourceIp = "" then pure none
      else do
        let windowSeconds := env.settings.passwordSprayWindowSeconds
        let since := event.timestamp - seconds windowSeconds
        let usernames ← ask fun db =>
          db.distinctUsernamesForFailuresBySourceIp sourceIp since event.timestamp
        if usernames.length < env.settings.passwordSprayUniqueUsers then pure none
        else do
          let failures ← ask fun db =>
            db.recentLoginFailuresBySourceIp env sourceIp since event.timestamp
          pure (some
            { ruleId := passwordSprayId
              title := "Potential password spray detected"
              description := "Detected login failures against " ++ natStr usernames.length ++
                " users from " ++ sourceIp ++ " within " ++ intStr windowSeconds ++ " seconds."
              severity := "high"
              confidence := decimal 88 (-2) spray_digits
              sourceIp := event.sourceIp
              username := event.username
              eventId := event.eventId
              evidence := .obj
                [("unique_users", .arr ((usernames.insertionSort (· ≤ ·)).map .str)),
                  ("unique_user_count", .int usernames.length),
                  ("window_seconds", .int windowSeconds)]
              firstSeen := (failures.head?.map (·.timestamp)).getD event.timestamp
              lastSeen := event.timestamp })

def ruleRegistry (event : Event) : List (Ingest H (Option DetectionResult)) :=
  [evaluate env bruteForce event, passwordSpray env event,
    evaluate env suspiciousPrivilegeChange event, evaluate env largeDownload event,
    evaluate env loginAfterFailures event, evaluate env mlAnomaly event,
    evaluate env cloudFinding event]

def evaluateEvent (event : Event) : Ingest H (List DetectionResult) := do
  let results ← sequence (ruleRegistry env event)
  pure results.reduceOption

def runDetection (payload : EventCreate) : Ingest H (List Alert) := do
  let event ← createEvent env payload
  let results ← evaluateEvent env event
  let alerts ← ask fun db => buildAlerts env event db.nextId results
  put fun db => db.createAlerts alerts
  pure alerts

end Detection

section Correlate

def createIncident (incident : Uuid → Incident) : Ingest H Incident := do
  let row ← ask fun db => incident db.nextId
  put fun db => { db with incidents := db.incidents ++ [row], nextId := db.nextId + 1 }
  pure row

def addAlertLinks (incidentId : Uuid) (alertIds : List Uuid) : Ingest H Unit := do
  let links ← ask fun db =>
    (alertIds.filter fun id => (incidentId, id) ∉ db.links).map fun id => (incidentId, id)
  put fun db => { db with links := db.links ++ links }

def updateIncident (incident : Incident) : Ingest H Unit := do
  acquire (.incident incident.id)
  put fun db => db.updateIncident incident

def acquireCorrelationLocks (keys : List String) : Ingest H Unit :=
  acquireAll (keys.map fun key => .advisory (hash key))

-- the rest of a correlation, once it has its incident
def linkCandidates (correlationKey : String) (username sourceIp : Option String)
    (candidates : List Alert) (incident : Incident) : Ingest H Unit := do
  addAlertLinks incident.id (candidates.map (·.id))
  let linked ← ask fun db => db.alertsForIncident env incident.id
  let firstSeen ← ofOption (linked.map (·.firstSeen)).min?
  let lastSeen ← ofOption (linked.map (·.lastSeen)).max?
  let row ← ask fun db => refreshCredential env db correlationKey username sourceIp linked
    firstSeen lastSeen incident
  updateIncident row

def correlateCandidates (alert : Alert) (candidates : List Alert) : Ingest H Unit := do
  let username := selectPrimaryUsername candidates
  let sourceIp := selectPrimarySourceIp candidates
  let correlationKey := buildCorrelationKey env.text username sourceIp
  acquireCorrelationLocks hash (buildIdentityLockKeys env.text username sourceIp)
  let found ← ask fun db => db.findOpenRelatedIncident env correlationKey username sourceIp
    (mergeSince env alert) alert.lastSeen
  match found with
  | some incident => linkCandidates env correlationKey username sourceIp candidates incident
  | none => do
      let firstSeen ← ofOption (candidates.map (·.firstSeen)).min?
      let lastSeen ← ofOption (candidates.map (·.lastSeen)).max?
      let incident ← createIncident
        (credentialIncident correlationKey username sourceIp firstSeen lastSeen)
      linkCandidates env correlationKey username sourceIp candidates incident

def linkFinding (alert : Alert) (incident : Incident) : Ingest H Unit := do
  addAlertLinks incident.id [alert.id]
  let linked ← ask fun db => db.alertsForIncident env incident.id
  let severityScores ← ofOption (linked.mapM fun item => findingScores.lookup item.severity)
  let topScore ← ofOption severityScores.max?
  let lastSeen ← ofOption (linked.map (·.lastSeen)).max?
  let row ← ask fun db => refreshFinding env db linked topScore lastSeen incident
  updateIncident row

def correlateCloudFinding (alert : Alert) : Ingest H Unit := do
  let stored ← ask fun db => db.getByIds [alert.eventId] alert.eventId
  let event ← ofOption stored
  let correlationKey := eventFindingKey env event
  acquireCorrelationLocks hash [correlationKey]
  let found ← ask fun db => db.findOpenRelatedIncident env correlationKey none none
    (findingSince alert) (findingUntil alert)
  match found with
  | some incident => linkFinding env alert incident
  | none => do
      let riskScore ← ofOption (findingScores.lookup alert.severity)
      let incident ← createIncident (findingIncident alert correlationKey riskScore)
      linkFinding env alert incident

def correlateAlert (alert : Alert) : Ingest H Unit :=
  if alert.ruleId = cloudFindingId then correlateCloudFinding env hash alert
  else if alert.ruleId ∉ allowedRules then pure ()
  else do
    let candidates ← ask fun db => candidateAlerts env db alert
    match candidates with
    | [] => pure ()
    | candidate :: candidates => correlateCandidates env hash alert (candidate :: candidates)

def correlate : List Alert → Ingest H Unit
  | [] => pure ()
  | alert :: alerts => do
      correlateAlert env hash alert
      correlate alerts

end Correlate

section Ingestion

def ingestEvent (payload : EventCreate) : Ingest H Unit := do
  let alerts ← runDetection env payload
  correlate env hash alerts

-- a single event is a batch of one
def createEventsBulk : List EventCreate → Ingest H Unit
  | [] => pure ()
  | payload :: payloads => do
      ingestEvent env hash payload
      createEventsBulk payloads

end Ingestion

section Serial

variable {env hash}

theorem exec_createEvent (payload : EventCreate) (db : Database) :
    (createEvent env payload : Ingest H Event).exec db =
      (db.createEvent (normalizeEvent env db.nextId payload)).map fun db' =>
        (normalizeEvent env db.nextId payload, db') := by
  simp only [createEvent, Program.exec_bind, Program.exec_ask, Program.exec_acquire,
    Option.bind_some, Database.createEvent]
  by_cases htaken : (normalizeEvent env db.nextId payload).eventId ∈ db.events.map (·.eventId)
  · rw [if_pos htaken, if_pos (decide_eq_true htaken)]
    rfl
  · rw [if_neg htaken, if_neg (by simpa only [decide_eq_true_eq] using htaken)]
    rfl

theorem answers_passwordSpray (event : Event) :
    Program.Answers (passwordSpray env event : Ingest H (Option DetectionResult))
      fun db => Correlation.passwordSpray env db event := by
  intro db
  unfold passwordSpray Correlation.passwordSpray
  cases event.sourceIp with
  | none => rfl
  | some sourceIp =>
      dsimp only
      split
      · rfl
      · rw [Program.exec_bind, Program.exec_ask, Option.bind_some]
        split
        · rfl
        · rfl

theorem answers_ruleRegistry (event : Event) :
    List.Forall₂ Program.Answers (ruleRegistry env event : List (Ingest H _))
      (Correlation.ruleRegistry.map fun rule db => rule env db event) :=
  .cons (Program.answers_ask_ofOption _) (.cons (answers_passwordSpray event)
    (.cons (Program.answers_ask_ofOption _) (.cons (Program.answers_ask_ofOption _)
      (.cons (Program.answers_ask_ofOption _) (.cons (Program.answers_ask_ofOption _)
        (.cons (Program.answers_ask_ofOption _) .nil))))))

theorem exec_evaluateEvent (event : Event) (db : Database) :
    (evaluateEvent env event : Ingest H (List DetectionResult)).exec db =
      (Correlation.evaluateEvent env db event).map fun results => (results, db) := by
  have hresults : (Correlation.ruleRegistry.map fun (rule : Rule) db => rule env db event).mapM
      (fun f => f db) = Correlation.ruleRegistry.mapM fun (rule : Rule) => rule env db event :=
    List.mapM_map
  rw [evaluateEvent, Program.exec_bind, Program.exec_sequence (answers_ruleRegistry event) db,
    hresults, Correlation.evaluateEvent]
  cases Correlation.ruleRegistry.mapM fun (rule : Rule) => rule env db event with
  | none => rfl
  | some results => rfl

theorem exec_runDetection (payload : EventCreate) (db : Database) :
    (runDetection env payload : Ingest H (List Alert)).exec db =
      (Correlation.runDetection env db payload).map fun p => (p.2, p.1) := by
  rw [runDetection, Program.exec_bind, exec_createEvent, Correlation.runDetection]
  cases hcreate : db.createEvent (normalizeEvent env db.nextId payload) with
  | none => rfl
  | some db1 =>
      simp only [Option.map_some, Option.bind_some, Option.bind_eq_bind, Program.exec_bind,
        exec_evaluateEvent]
      cases Correlation.evaluateEvent env db1 (normalizeEvent env db.nextId payload) with
      | none => rfl
      | some results => rfl

theorem exec_createIncident (incident : Uuid → Incident) (db : Database) :
    (createIncident incident : Ingest H Incident).exec db =
      some ((db.createIncident incident).2, (db.createIncident incident).1) := rfl

theorem exec_addAlertLinks (incidentId : Uuid) (alertIds : List Uuid) (db : Database) :
    (addAlertLinks incidentId alertIds : Ingest H Unit).exec db =
      some ((), db.addAlertLinks incidentId alertIds) := rfl

theorem exec_acquireCorrelationLocks (keys : List String) (db : Database) :
    (acquireCorrelationLocks hash keys : Ingest H Unit).exec db = some ((), db) :=
  Program.exec_acquireAll _ _

theorem exec_linkCandidates (correlationKey : String) (username sourceIp : Option String)
    (candidates : List Alert) (incident : Incident) (db : Database) :
    (linkCandidates env correlationKey username sourceIp candidates incident : Ingest H Unit).exec
      db = (do
        let db := db.addAlertLinks incident.id (candidates.map (·.id))
        let linked := db.alertsForIncident env incident.id
        let firstSeen ← (linked.map (·.firstSeen)).min?
        let lastSeen ← (linked.map (·.lastSeen)).max?
        some ((), db.updateIncident (refreshCredential env db correlationKey username sourceIp
          linked firstSeen lastSeen incident))) := by
  simp only [linkCandidates, Program.exec_bind, exec_addAlertLinks, Program.exec_ask,
    Program.exec_ofOption, Option.bind_some, Option.bind_eq_bind, Option.bind_map]
  rfl

theorem exec_correlateCandidates (alert : Alert) (candidates : List Alert) (db : Database) :
    (correlateCandidates env hash alert candidates).exec db =
      (Correlation.correlateCandidates env db alert candidates).map fun db' => ((), db') := by
  unfold correlateCandidates Correlation.correlateCandidates
  simp only [Program.exec_bind, exec_acquireCorrelationLocks, Program.exec_ask, Option.bind_some,
    Option.bind_eq_bind]
  cases db.findOpenRelatedIncident env _ _ _ _ _ with
  | some incident =>
      simp only [exec_linkCandidates, Option.bind_eq_bind, Option.map_bind, Function.comp_def,
        Option.map_some]
  | none =>
      simp only [Program.exec_bind, Program.exec_ofOption, Option.bind_map, exec_createIncident,
        exec_linkCandidates, Option.bind_eq_bind, Option.map_bind, Function.comp_def,
        Option.bind_some, Option.map_some]

theorem exec_linkFinding (alert : Alert) (incident : Incident) (db : Database) :
    (linkFinding env alert incident : Ingest H Unit).exec db = (do
        let db := db.addAlertLinks incident.id [alert.id]
        let linked := db.alertsForIncident env incident.id
        let severityScores ← linked.mapM fun item => findingScores.lookup item.severity
        let topScore ← severityScores.max?
        let lastSeen ← (linked.map (·.lastSeen)).max?
        some ((), db.updateIncident (refreshFinding env db linked topScore lastSeen incident))) := by
  simp only [linkFinding, Program.exec_bind, exec_addAlertLinks, Program.exec_ask,
    Program.exec_ofOption, Option.bind_some, Option.bind_eq_bind, Option.bind_map]
  rfl

theorem exec_correlateCloudFinding (alert : Alert) (db : Database) :
    (correlateCloudFinding env hash alert).exec db =
      (Correlation.correlateCloudFinding env db alert).map fun db' => ((), db') := by
  unfold correlateCloudFinding Correlation.correlateCloudFinding
  simp only [Program.exec_bind, exec_acquireCorrelationLocks, Program.exec_ask, Option.bind_some,
    Option.bind_eq_bind, Program.exec_ofOption, Option.bind_map]
  cases db.getByIds [alert.eventId] alert.eventId with
  | none => rfl
  | some event =>
      simp only [Function.comp_apply, Option.bind_some]
      cases db.findOpenRelatedIncident env _ _ _ _ _ with
      | some incident =>
          simp only [exec_linkFinding, Option.bind_eq_bind, Option.map_bind, Function.comp_def,
            Option.map_some]
      | none =>
          simp only [Program.exec_bind, Program.exec_ofOption, Option.bind_map,
            exec_createIncident, exec_linkFinding, Option.bind_eq_bind, Option.map_bind,
            Function.comp_def, Option.bind_some, Option.map_some]

theorem exec_correlateAlert (alert : Alert) (db : Database) :
    (correlateAlert env hash alert).exec db =
      (Correlation.correlateAlert env db alert).map fun db' => ((), db') := by
  unfold correlateAlert Correlation.correlateAlert
  split
  · exact exec_correlateCloudFinding alert db
  · split
    · rfl
    · rw [Program.exec_bind, Program.exec_ask, Option.bind_some]
      cases candidateAlerts env db alert with
      | nil => rfl
      | cons candidate candidates => exact exec_correlateCandidates alert _ db

theorem exec_correlate (alerts : List Alert) (db : Database) :
    (correlate env hash alerts).exec db =
      (Correlation.correlate env db alerts).map fun db' => ((), db') := by
  induction alerts generalizing db with
  | nil => rfl
  | cons alert alerts ih =>
      have hserial : Correlation.correlate env db (alert :: alerts) =
          (Correlation.correlateAlert env db alert).bind fun db' =>
            Correlation.correlate env db' alerts := rfl
      rw [correlate, Program.exec_bind, exec_correlateAlert, hserial]
      cases Correlation.correlateAlert env db alert with
      | none => rfl
      | some db' => exact ih db'

theorem exec_ingestEvent (payload : EventCreate) (db : Database) :
    (ingestEvent env hash payload).exec db =
      (Correlation.ingestEvent env db payload).map fun db' => ((), db') := by
  rw [ingestEvent, Program.exec_bind, exec_runDetection, Correlation.ingestEvent]
  cases Correlation.runDetection env db payload with
  | none => rfl
  | some p => exact exec_correlate p.2 p.1

theorem exec_createEventsBulk (payloads : List EventCreate) (db : Database) :
    (createEventsBulk env hash payloads).exec db =
      (Correlation.createEventsBulk env db payloads).map fun db' => ((), db') := by
  induction payloads generalizing db with
  | nil => rfl
  | cons payload payloads ih =>
      have hserial : Correlation.createEventsBulk env db (payload :: payloads) =
          (Correlation.ingestEvent env db payload).bind fun db' =>
            Correlation.createEventsBulk env db' payloads := rfl
      rw [createEventsBulk, Program.exec_bind, exec_ingestEvent, hserial]
      cases Correlation.ingestEvent env db payload with
      | none => rfl
      | some db' => exact ih db'

end Serial

end Correlation.Statements

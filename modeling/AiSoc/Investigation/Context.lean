import AiSoc.Investigation.Schema
import AiSoc.Library.PyDatetime
import AiSoc.Library.PyText
import AiSoc.Security.Permissions

namespace Investigation

open Permissions (Uuid Timestamp)
open PyJson PyDatetime PyStr

def severities : List String := ["low", "medium", "high", "critical"]

def eventTypes : List String :=
  ["login_success", "login_failure", "logout", "api_request", "api_error", "file_access",
    "file_download", "privilege_change", "network_connection", "network_scan", "resource_access",
    "account_created", "account_deleted", "password_changed", "cloud_finding", "access_key_used",
    "s3_public_exposure", "secret_exposure", "data_exfiltration"]

structure IncidentRow where
  id : Uuid
  title : String
  description : String
  status : String
  severity : String
  riskScore : Int
  primaryUsername : Option String
  primarySourceIp : Option String
  firstSeen : Timestamp
  lastSeen : Timestamp
  timeline : List Obj

structure AlertRow where
  id : Uuid
  eventId : Uuid
  ruleId : String
  title : String
  description : String
  severity : String
  confidence : PyFloat
  sourceIp : Option String
  username : Option String
  firstSeen : Timestamp
  lastSeen : Timestamp
  evidence : Json

structure EventRow where
  id : Uuid
  eventId : String
  timestamp : Timestamp
  source : String
  sourceType : String
  eventType : String
  category : String
  severity : Option String
  username : Option String
  sourceIp : Option String
  destinationIp : Option String
  hostname : Option String
  action : Option String
  status : Option String
  resource : Option String
  bytesSent : Option Int
  bytesReceived : Option Int

structure TechniqueRow where
  externalId : String
  name : String
  tactics : List String
  description : String

structure EvidenceRow where
  id : Uuid
  kind : String
  source : String
  summary : String
  network : Option Obj
  observedAt : Option Timestamp

-- what the queries of build return; the evidence rows are the newest first
structure ContextReads where
  incident : Option IncidentRow
  alerts : List AlertRow
  events : List EventRow
  techniques : List TechniqueRow
  attachedEvidence : List EvidenceRow
  classification : Option Obj

inductive ContextError where
  | incidentNotFound
  | contextTooLarge
  deriving DecidableEq, Repr

def isControl (c : Char) : Bool :=
  let n := c.toNat
  n ≤ 8 || n == 0x0b || n == 0x0c || (0x0e ≤ n && n ≤ 0x1f) || n == 0x7f

def cleanString (value : String) (limit : Nat) : String :=
  slice limit (strip (String.ofList (value.toList.filter fun c => !isControl c)))

def cleanOptional (value : Option String) : Option String :=
  value.map fun s => cleanString s 500

-- the depth counts down from 4
def sanitizeWithin : Nat → Json → Json
  | 0, _ => .str "[truncated]"
  | n + 1, .obj fields =>
      .obj (Obj.ofPairs ((fields.take 50).map fun p => (cleanString p.1 100, sanitizeWithin n p.2)))
  | n + 1, .arr items => .arr ((items.take 50).map (sanitizeWithin n))
  | _ + 1, .str s => .str (cleanString s 1000)
  | _ + 1, value => value

def sanitize (depth : Nat) (value : Json) : Json :=
  sanitizeWithin (4 - depth) value

-- an entry of a list of dicts, one level down
def sanitizeEntry (entry : Obj) : Obj :=
  Obj.ofPairs ((entry.take 50).map fun p => (cleanString p.1 100, sanitize 2 p.2))

def alertContext (alert : AlertRow) : AlertContext where
  ref := "alert:" ++ uuidText alert.id
  id := uuidText alert.id
  ruleId := alert.ruleId
  title := cleanString alert.title 255
  description := cleanString alert.description 1500
  severity := alert.severity
  confidence := alert.confidence
  sourceIp := cleanOptional alert.sourceIp
  username := cleanOptional alert.username
  firstSeen := isoformat alert.firstSeen
  lastSeen := isoformat alert.lastSeen
  evidence := sanitize 0 alert.evidence

def eventContext (event : EventRow) : EventContext where
  ref := "event:" ++ event.eventId
  eventId := event.eventId
  timestamp := isoformat event.timestamp
  source := cleanString event.source 255
  sourceType := event.sourceType
  eventType := event.eventType
  category := event.category
  severity := event.severity
  username := cleanOptional event.username
  sourceIp := cleanOptional event.sourceIp
  destinationIp := cleanOptional event.destinationIp
  hostname := cleanOptional event.hostname
  action := cleanOptional event.action
  status := cleanOptional event.status
  resource := cleanOptional event.resource
  bytesSent := event.bytesSent
  bytesReceived := event.bytesReceived

def techniqueContext (technique : TechniqueRow) : TechniqueContext where
  techniqueId := technique.externalId
  name := technique.name
  tactics := technique.tactics
  description := cleanString technique.description 1000

def evidenceContext (item : EvidenceRow) : EvidenceContext where
  ref := "evidence:" ++ uuidText item.id
  kind := item.kind
  source := cleanString item.source 160
  summary := cleanString item.summary 2000
  network := item.network
  observedAt := item.observedAt.map isoformat
  provenance := "analyst_supplied_unverified"

def evidenceQuality (alerts : List AlertRow) (attachedEvidence : List EvidenceRow) :
    EvidenceQuality :=
  if alerts ≠ [] then .corroboratedTelemetry
  else if attachedEvidence ≠ [] then .analystSupplied
  else .reportOnly

def incidentContext (incident : IncidentRow) (quality : EvidenceQuality)
    (classification : Option Obj) : IncidentContext where
  id := uuidText incident.id
  title := cleanString incident.title 255
  description := cleanString incident.description 2000
  status := incident.status
  severity := incident.severity
  riskScore := incident.riskScore
  primaryUsername := cleanOptional incident.primaryUsername
  primarySourceIp := cleanOptional incident.primarySourceIp
  firstSeen := isoformat incident.firstSeen
  lastSeen := isoformat incident.lastSeen
  evidenceQuality := quality
  detector := classification.map .obj
  contextTruncated := false

-- one event for each alert whose event is found
def eventsOfAlerts (alerts : List AlertRow) (events : List EventRow) : List EventRow :=
  alerts.filterMap fun alert => events.find? fun event => event.id = alert.eventId

def references (incidentId : String) (alerts : List AlertContext) (events : List EventContext)
    (techniques : List TechniqueContext) (evidence : List EvidenceContext) : List String :=
  ["incident:" ++ incidentId] ++ alerts.map (·.ref) ++ events.map (fun e => "event:" ++ e.eventId) ++
    techniques.map (fun t => "mitre:" ++ t.techniqueId) ++ evidence.map (·.ref)

def untruncated (reads : ContextReads) (incident : IncidentRow) : InvestigationContext :=
  let attached := reads.attachedEvidence.take 50
  let alerts := reads.alerts.map alertContext
  let events := (eventsOfAlerts reads.alerts reads.events).map eventContext
  let techniques := reads.techniques.map techniqueContext
  let evidence := attached.map evidenceContext
  { incident := incidentContext incident (evidenceQuality reads.alerts attached)
      reads.classification
    alerts := alerts
    events := events
    incidentEvidence := evidence
    timeline := (incident.timeline.take 50).map sanitizeEntry
    techniques := techniques
    validEvidenceRefs :=
      sortedSet (references (uuidText incident.id) alerts events techniques evidence) }

section Truncation

def serializedSize (context : InvestigationContext) : Nat :=
  (text context.modelDump).length

-- items[-n:]
def lastItems {α : Type} (n : Nat) (items : List α) : List α :=
  items.drop (items.length - n)

def shortenAlert (alert : AlertContext) : AlertContext :=
  { alert with
    description := slice 500 alert.description
    evidence := sanitize 2 alert.evidence }

def shortenEntry (py : PyText) (entry : Obj) : Obj :=
  let description := py.str ((entry.get "description").getD (.str ""))
  (entry.set "description" (.str (slice 500 description))).set "metadata" (.obj [])

def shorten (py : PyText) (context : InvestigationContext) : InvestigationContext :=
  { context with
    incident := { context.incident with contextTruncated := true }
    alerts := (lastItems 50 context.alerts).map shortenAlert
    events := lastItems 50 context.events
    incidentEvidence := context.incidentEvidence.take 30
    timeline := (lastItems 50 context.timeline).map (shortenEntry py) }

def popOne (context : InvestigationContext) : Option InvestigationContext :=
  if context.timeline.length > 1 then some { context with timeline := context.timeline.tail }
  else if context.events.length > 1 then some { context with events := context.events.tail }
  else if context.alerts.length > 1 then some { context with alerts := context.alerts.tail }
  else if context.incidentEvidence.length > 1 then
    some { context with incidentEvidence := context.incidentEvidence.dropLast }
  else none

def itemCount (context : InvestigationContext) : Nat :=
  context.timeline.length + context.events.length + context.alerts.length +
    context.incidentEvidence.length

theorem popOne_itemCount {context context' : InvestigationContext}
    (h : popOne context = some context') : itemCount context' < itemCount context := by
  simp only [popOne] at h
  split at h
  · cases h
    simp only [itemCount, List.length_tail]
    omega
  · split at h
    · cases h
      simp only [itemCount, List.length_tail]
      omega
    · split at h
      · cases h
        simp only [itemCount, List.length_tail]
        omega
      · split at h
        · cases h
          simp only [itemCount, List.length_dropLast]
          omega
        · cases h

def popUntilFits (maxChars : Int) (context : InvestigationContext) :
    Except ContextError InvestigationContext :=
  if serializedSize context ≤ maxChars then .ok context
  else
    match _h : popOne context with
    | none => .error .contextTooLarge
    | some context' => popUntilFits maxChars context'
termination_by itemCount context
decreasing_by exact popOne_itemCount _h

def retainedRefs (context : InvestigationContext) : List String :=
  sortedSet (context.alerts.map (·.ref) ++ context.events.map (·.ref) ++
    context.incidentEvidence.map (·.ref) ++
    (if context.incident.id = "" then [] else ["incident:" ++ context.incident.id]) ++
    context.techniques.map fun t => "mitre:" ++ t.techniqueId)

def enforceSize (py : PyText) (maxChars : Int) (context : InvestigationContext) :
    Except ContextError InvestigationContext :=
  if serializedSize context ≤ maxChars then .ok context
  else
    match popUntilFits maxChars (shorten py context) with
    | .error e => .error e
    | .ok context => .ok { context with validEvidenceRefs := retainedRefs context }

end Truncation

def build (py : PyText) (maxChars : Int) (reads : ContextReads) :
    Except ContextError InvestigationContext :=
  match reads.incident with
  | none => .error .incidentNotFound
  | some incident => enforceSize py maxChars (untruncated reads incident)

end Investigation

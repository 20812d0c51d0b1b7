import AiSoc.Investigation.Context

namespace Correlation

open Permissions (Uuid Timestamp)
open Investigation (AlertRow EventRow optStr optInt)
open PyJson PyStr PyDatetime

structure Alert extends AlertRow where
  createdAt : Timestamp

inductive EntryType where
  | alert
  | event
  deriving DecidableEq, Repr

def EntryType.value : EntryType → String
  | .alert => "alert"
  | .event => "event"

structure TimelineEntry where
  timestamp : Timestamp
  type : EntryType
  title : String
  description : String
  eventId : Option String
  alertId : Option Uuid
  ruleId : Option String
  username : Option String
  sourceIp : Option String
  metadata : Json

def TimelineEntry.toJson (entry : TimelineEntry) : Obj :=
  [("timestamp", .str (isoformat entry.timestamp)), ("type", .str entry.type.value),
    ("title", .str entry.title), ("description", .str entry.description),
    ("event_id", optStr entry.eventId), ("alert_id", optStr (entry.alertId.map uuidText)),
    ("rule_id", optStr entry.ruleId), ("username", optStr entry.username),
    ("source_ip", optStr entry.sourceIp), ("metadata", entry.metadata)]

-- the only entry of an incident that an analyst creates
def createdEntry (now : Timestamp) (title description : String)
    (primaryUsername primarySourceIp : Option String) (presetScenario : String) : Obj :=
  [("timestamp", .str (isoformat now)), ("type", .str "incident_created"),
    ("title", .str ("Incident created: " ++ title)), ("description", .str description),
    ("username", optStr primaryUsername), ("source_ip", optStr primarySourceIp),
    ("metadata", .obj [("source", .str "analyst_console"), ("preset", .str presetScenario)])]

def eventEntry (event : EventRow) : TimelineEntry where
  timestamp := event.timestamp
  type := .event
  title := "Event: " ++ event.eventType
  description := event.source ++ " generated a " ++ event.eventType ++ " event."
  eventId := some event.eventId
  alertId := none
  ruleId := none
  username := event.username
  sourceIp := event.sourceIp
  metadata := .obj [("category", .str event.category), ("status", optStr event.status),
    ("resource", optStr event.resource), ("bytes_received", optInt event.bytesReceived)]

def alertEntry (alert : Alert) (event : Option EventRow) : TimelineEntry where
  timestamp := alert.lastSeen
  type := .alert
  title := alert.title
  description := alert.description
  eventId := event.map (·.eventId)
  alertId := some alert.id
  ruleId := some alert.ruleId
  username := alert.username
  sourceIp := alert.sourceIp
  metadata := alert.evidence

def alertBefore (a b : Alert) : Prop :=
  a.firstSeen < b.firstSeen ∨ a.firstSeen = b.firstSeen ∧ a.createdAt ≤ b.createdAt

instance : DecidableRel alertBefore :=
  fun a b => inferInstanceAs (Decidable (a.firstSeen < b.firstSeen ∨
    a.firstSeen = b.firstSeen ∧ a.createdAt ≤ b.createdAt))

-- the timestamps are compared as texts
def entryBefore (a b : TimelineEntry) : Prop :=
  isoformat a.timestamp < isoformat b.timestamp ∨
    isoformat a.timestamp = isoformat b.timestamp ∧ a.type.value ≤ b.type.value

instance : DecidableRel entryBefore :=
  fun a b => inferInstanceAs (Decidable (isoformat a.timestamp < isoformat b.timestamp ∨
    isoformat a.timestamp = isoformat b.timestamp ∧ a.type.value ≤ b.type.value))

def timelineEntries (eventsById : Uuid → Option EventRow) :
    List String → List Alert → List TimelineEntry
  | _, [] => []
  | seen, alert :: alerts =>
      match eventsById alert.eventId with
      | some event =>
          if event.eventId ∈ seen then
            alertEntry alert (some event) :: timelineEntries eventsById seen alerts
          else
            eventEntry event :: alertEntry alert (some event) ::
              timelineEntries eventsById (event.eventId :: seen) alerts
      | none => alertEntry alert none :: timelineEntries eventsById seen alerts

def buildIncidentTimeline (alerts : List Alert) (eventsById : Uuid → Option EventRow) :
    List TimelineEntry :=
  (timelineEntries eventsById [] (alerts.insertionSort alertBefore)).insertionSort entryBefore

end Correlation

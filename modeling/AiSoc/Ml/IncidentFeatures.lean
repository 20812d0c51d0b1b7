import AiSoc.Investigation.Context
import AiSoc.Library.FloatOfNat
import AiSoc.Library.Joins
import Mathlib.Data.Finset.Card

namespace Ml

open Investigation (AlertRow EventRow EventContext eventContext eventsOfAlerts cleanOptional)
open Permissions (Uuid)
open Joins

section Features

-- the keys of an event that features_for_events reads
structure Summary where
  eventType : String
  severity : Option String
  username : Option String
  sourceIp : Option String
  bytesSent : Option Int
  bytesReceived : Option Int
  deriving DecidableEq

-- FEATURES[:11]
def countedTypes : List String :=
  ["login_failure", "login_success", "privilege_change", "file_download", "api_error",
    "network_scan", "cloud_finding", "access_key_used", "s3_public_exposure", "secret_exposure",
    "data_exfiltration"]

def distinctValues (values : List (Option String)) : Nat :=
  (((values.filterMap fun value => value).filter fun s => s ≠ "").dedup).length

-- max(0, n or 0)
def natural (n : Option Int) : Nat :=
  (n.getD 0).toNat

def featureTotals (events : List Summary) : List (String × Nat) :=
  (countedTypes.map fun name => (name, (events.map (·.eventType)).count name)) ++
    [("critical_findings", (events.map (·.severity)).count (some "critical")),
      ("high_findings", (events.map (·.severity)).count (some "high")),
      ("distinct_users", distinctValues (events.map (·.username))),
      ("distinct_ips", distinctValues (events.map (·.sourceIp))),
      ("bytes_sent", (events.map fun event => natural event.bytesSent).sum),
      ("bytes_received", (events.map fun event => natural event.bytesReceived).sum)]

-- none where float() of a total raises
def featuresForEvents (events : List Summary) : Option (List (String × Rat)) :=
  (featureTotals events).mapM fun (name, total) =>
    (PyFloat.ofNat total).map fun value => (name, value)

end Features

section Paths

-- rows of one table, by primary key
structure EventTable where
  rows : List EventRow
  ids : (rows.map (·.id)).Nodup

def getByIds (events : EventTable) (ids : List Uuid) : List EventRow :=
  events.rows.filter fun event => event.id ∈ ids

def linkedEvents (alerts : List AlertRow) (events : EventTable) : List EventRow :=
  getByIds events (alerts.map (·.eventId))

def contextSummary (event : EventContext) : Summary where
  eventType := event.eventType
  severity := event.severity
  username := event.username
  sourceIp := event.sourceIp
  bytesSent := event.bytesSent
  bytesReceived := event.bytesReceived

-- what InvestigationContextBuilder.build passes to classify_incident
def builderSummaries (alerts : List AlertRow) (events : EventTable) : List Summary :=
  ((eventsOfAlerts alerts (linkedEvents alerts events)).map eventContext).map contextSummary

def rowSummary (event : EventRow) : Summary where
  eventType := event.eventType
  severity := event.severity
  username := event.username
  sourceIp := event.sourceIp
  bytesSent := event.bytesSent
  bytesReceived := event.bytesReceived

-- what get_incident_classification passes to it
def endpointSummaries (alerts : List AlertRow) (events : EventTable) : List Summary :=
  (linkedEvents alerts events).map rowSummary

end Paths

section Conditions

def alertsOf (alerts : List AlertRow) (event : EventRow) : Nat :=
  references (·.eventId) alerts event.id

def Unremarkable (event : EventRow) : Prop :=
  event.eventType ∉ countedTypes ∧ event.severity ≠ some "critical" ∧
    event.severity ≠ some "high" ∧ event.bytesSent.getD 0 ≤ 0 ∧ event.bytesReceived.getD 0 ≤ 0

def KeptApart (field : EventRow → Option String) (events : List EventRow) : Prop :=
  ∀ event ∈ events, ∀ value ∈ field event, value ≠ "" →
    Investigation.cleanString value 500 ≠ "" ∧
      ∀ other ∈ events, ∀ value' ∈ field other, value' ≠ "" →
        Investigation.cleanString value 500 = Investigation.cleanString value' 500 →
          value = value'

structure SeenAlike (alerts : List AlertRow) (events : EventTable) : Prop where
  repeated : ∀ event ∈ linkedEvents alerts events, 1 < alertsOf alerts event → Unremarkable event
  usernames : KeptApart (·.username) (linkedEvents alerts events)
  sourceIps : KeptApart (·.sourceIp) (linkedEvents alerts events)

end Conditions

section Totals

variable {alerts : List AlertRow} {events : EventTable}

theorem linked_nodup : ((linkedEvents alerts events).map (·.id)).Nodup :=
  (List.filter_sublist.map _).nodup events.ids

theorem mem_linked {event : EventRow} :
    event ∈ linkedEvents alerts events ↔
      event ∈ events.rows ∧ ∃ alert ∈ alerts, alert.eventId = event.id := by
  simp only [linkedEvents, getByIds, List.mem_filter, decide_eq_true_eq, List.mem_map]

theorem alertsOf_pos {event : EventRow} (h : event ∈ linkedEvents alerts events) :
    0 < alertsOf alerts event :=
  references_pos (mem_linked.mp h).2

theorem eventsOfAlerts_eq (rows : List EventRow) :
    eventsOfAlerts alerts rows = joined (·.eventId) (·.id) alerts rows := rfl

theorem mem_eventsOfAlerts {event : EventRow} :
    event ∈ eventsOfAlerts alerts (linkedEvents alerts events) ↔
      event ∈ linkedEvents alerts events := by
  rw [eventsOfAlerts_eq, mem_joined linked_nodup]
  exact ⟨fun h => h.1, fun h => ⟨h, (mem_linked.mp h).2⟩⟩

theorem total_eq_iff (w : EventRow → Nat) :
    ((eventsOfAlerts alerts (linkedEvents alerts events)).map w).sum =
        ((linkedEvents alerts events).map w).sum ↔
      ∀ event ∈ linkedEvents alerts events, 1 < alertsOf alerts event → w event = 0 := by
  rw [eventsOfAlerts_eq, sum_joined linked_nodup]
  refine (sum_repeated_eq_iff (n := alertsOf alerts) fun event => alertsOf_pos).trans ?_
  refine forall₂_congr fun event hevent => ?_
  have hpos := alertsOf_pos hevent
  constructor
  · rintro (hone | hzero) hmany
    · omega
    · exact hzero
  · intro hrepeated
    by_cases hmany : 1 < alertsOf alerts event
    · exact .inr (hrepeated hmany)
    · exact .inl (by omega)

theorem count_eq_sum {V : Type} [BEq V] (f : EventRow → V) (value : V) (rows : List EventRow) :
    (rows.map f).count value = (rows.map fun row => if f row == value then 1 else 0).sum := by
  induction rows with
  | nil => rfl
  | cons row rows ih =>
      rw [List.map_cons, List.map_cons, List.sum_cons, List.count_cons, ih, Nat.add_comm]

theorem count_eq_iff {V : Type} [BEq V] [LawfulBEq V] (f : EventRow → V) (value : V) :
    ((eventsOfAlerts alerts (linkedEvents alerts events)).map f).count value =
        ((linkedEvents alerts events).map f).count value ↔
      ∀ event ∈ linkedEvents alerts events, 1 < alertsOf alerts event → f event ≠ value := by
  rw [count_eq_sum, count_eq_sum, total_eq_iff]
  simp only [beq_iff_eq, ite_eq_right_iff, Nat.one_ne_zero, imp_false, ne_eq]

end Totals

end Ml

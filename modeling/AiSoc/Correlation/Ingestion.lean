import AiSoc.Correlation.Service
import AiSoc.Library.Transition

namespace Correlation

open Transition

section Correlations

def correlationsOf (env : Env) : Database → List Alert → List (Database × Alert)
  | _, [] => []
  | db, alert :: alerts =>
      (db, alert) ::
        match correlateAlert env db alert with
        | some db' => correlationsOf env db' alerts
        | none => []

def eventCorrelations (env : Env) (db : Database) (payload : EventCreate) :
    List (Database × Alert) :=
  match runDetection env db payload with
  | some (db', alerts) => correlationsOf env db' alerts
  | none => []

def bulkCorrelations (env : Env) : Database → List EventCreate → List (Database × Alert)
  | _, [] => []
  | db, payload :: payloads =>
      eventCorrelations env db payload ++
        match ingestEvent env db payload with
        | some db' => bulkCorrelations env db' payloads
        | none => []

def Request.correlations (env : Env) (db : Database) : Request → List (Database × Alert)
  | .createEvent payload => eventCorrelations env db payload
  | .createEventsBulk payloads => bulkCorrelations env db payloads
  | .createManualIncident _ => []

def Request.ingests : Request → Bool
  | .createManualIncident _ => false
  | _ => true

def correlationsMeet (env : Env) (ok : Database → Alert → Prop) (db : Database)
    (request : Request) : Prop :=
  ∀ p ∈ request.correlations env db, ok p.1 p.2

instance (env : Env) (ok : Database → Alert → Prop) [∀ db alert, Decidable (ok db alert)]
    (db : Database) (request : Request) : Decidable (correlationsMeet env ok db request) :=
  inferInstanceAs (Decidable (∀ p ∈ request.correlations env db, ok p.1 p.2))

end Correlations

section Steps

-- the alerts of the last event that are still to correlate stand beside the database
abbrev Work := Database × List Alert

inductive Action where
  | detect (payload : EventCreate)
  | correlate
  | createManualIncident (payload : IncidentCreate)

def step (env : Env) : Work → Action → Option Work
  | (db, []), .detect payload => runDetection env db payload
  | (db, alert :: alerts), .correlate => (correlateAlert env db alert).map fun db' => (db', alerts)
  | (db, []), .createManualIncident payload => some (createManualIncident env db payload, [])
  | _, _ => none

def stepMeets (ok : Database → Alert → Prop) : Work → Action → Prop
  | (db, alert :: _), .correlate => ok db alert
  | _, _ => True

variable {env : Env} {ok : Database → Alert → Prop} {db db' : Database}

theorem run_of_correlate {alerts : List Alert} (h : correlate env db alerts = some db')
    (hok : ∀ p ∈ correlationsOf env db alerts, ok p.1 p.2) :
    Run (step env) (stepMeets ok) (db, alerts) (db', []) := by
  induction alerts generalizing db with
  | nil => cases h; exact .refl _
  | cons alert alerts ih =>
      obtain ⟨db1, h1, h2⟩ := Option.bind_eq_some_iff.mp h
      simp only [correlationsOf, h1, List.mem_cons, forall_eq_or_imp] at hok
      have hstep : step env (db, alert :: alerts) .correlate = some (db1, alerts) := by
        simp [step, h1]
      have hfirst : Run (step env) (stepMeets ok) (db, alert :: alerts) (db1, alerts) :=
        (Run.refl _).tail (l := .correlate) hok.1 hstep
      exact hfirst.trans (ih h2 hok.2)

theorem run_of_ingestEvent {payload : EventCreate} (h : ingestEvent env db payload = some db')
    (hok : ∀ p ∈ eventCorrelations env db payload, ok p.1 p.2) :
    Run (step env) (stepMeets ok) (db, []) (db', []) := by
  obtain ⟨⟨db1, alerts⟩, h1, h2⟩ := Option.bind_eq_some_iff.mp h
  simp only [eventCorrelations, h1] at hok
  have hdetect : step env (db, []) (.detect payload) = some (db1, alerts) := h1
  exact ((Run.refl _).tail trivial hdetect).trans (run_of_correlate h2 hok)

theorem run_of_bulk {payloads : List EventCreate} (h : createEventsBulk env db payloads = some db')
    (hok : ∀ p ∈ bulkCorrelations env db payloads, ok p.1 p.2) :
    Run (step env) (stepMeets ok) (db, []) (db', []) := by
  induction payloads generalizing db with
  | nil => cases h; exact .refl _
  | cons payload payloads ih =>
      obtain ⟨db1, h1, h2⟩ := Option.bind_eq_some_iff.mp h
      simp only [bulkCorrelations, h1, List.mem_append] at hok
      have hfirst := run_of_ingestEvent h1 fun p hp => hok p (.inl hp)
      exact hfirst.trans (ih h2 fun p hp => hok p (.inr hp))

theorem run_of_handle {request : Request} (h : handle env db request = some db')
    (hok : correlationsMeet env ok db request) :
    Run (step env) (stepMeets ok) (db, []) (db', []) := by
  cases request with
  | createEvent payload => exact run_of_ingestEvent h hok
  | createEventsBulk payloads => exact run_of_bulk h hok
  | createManualIncident payload =>
      cases h
      exact (Run.refl (db, [])).tail (l := .createManualIncident payload) trivial rfl

theorem run_of_requests (h : Run (handle env) (correlationsMeet env ok) db db') :
    Run (step env) (stepMeets ok) (db, []) (db', []) := by
  induction h with
  | refl => exact .refl _
  | tail _ hok hs ih => exact ih.trans (run_of_handle hs hok)

section Inside

variable {p : Database × Alert}

theorem run_to_correlation_of_alerts {alerts : List Alert} (hp : p ∈ correlationsOf env db alerts)
    (hok : ∀ q ∈ correlationsOf env db alerts, ok q.1 q.2) :
    ∃ rest, Run (step env) (stepMeets ok) (db, alerts) (p.1, p.2 :: rest) := by
  induction alerts generalizing db with
  | nil => simp [correlationsOf] at hp
  | cons alert alerts ih =>
      rcases List.mem_cons.mp hp with rfl | hp
      · exact ⟨alerts, .refl _⟩
      · cases h1 : correlateAlert env db alert with
        | none => simp [h1] at hp
        | some db1 =>
            simp only [correlationsOf, h1, List.mem_cons, forall_eq_or_imp] at hp hok
            have hstep : step env (db, alert :: alerts) .correlate = some (db1, alerts) := by
              simp [step, h1]
            have hfirst : Run (step env) (stepMeets ok) (db, alert :: alerts) (db1, alerts) :=
              (Run.refl _).tail (l := .correlate) hok.1 hstep
            obtain ⟨rest, hrun⟩ := ih hp hok.2
            exact ⟨rest, hfirst.trans hrun⟩

theorem run_to_correlation_of_event {payload : EventCreate}
    (hp : p ∈ eventCorrelations env db payload)
    (hok : ∀ q ∈ eventCorrelations env db payload, ok q.1 q.2) :
    ∃ rest, Run (step env) (stepMeets ok) (db, []) (p.1, p.2 :: rest) := by
  cases h1 : runDetection env db payload with
  | none => simp [eventCorrelations, h1] at hp
  | some detected =>
      simp only [eventCorrelations, h1] at hp hok
      have hdetect : step env (db, []) (.detect payload) = some detected := h1
      obtain ⟨rest, hrun⟩ := run_to_correlation_of_alerts hp hok
      exact ⟨rest, ((Run.refl _).tail trivial hdetect).trans hrun⟩

theorem run_to_correlation_of_bulk {payloads : List EventCreate}
    (hp : p ∈ bulkCorrelations env db payloads)
    (hok : ∀ q ∈ bulkCorrelations env db payloads, ok q.1 q.2) :
    ∃ rest, Run (step env) (stepMeets ok) (db, []) (p.1, p.2 :: rest) := by
  induction payloads generalizing db with
  | nil => simp [bulkCorrelations] at hp
  | cons payload payloads ih =>
      have hevent : ∀ q ∈ eventCorrelations env db payload, ok q.1 q.2 := fun q hq =>
        hok q (List.mem_append_left _ hq)
      rcases List.mem_append.mp hp with hp | hp
      · exact run_to_correlation_of_event hp hevent
      · cases h1 : ingestEvent env db payload with
        | none => simp [h1] at hp
        | some db1 =>
            simp only [h1] at hp
            obtain ⟨rest, hrun⟩ := ih hp fun q hq =>
              hok q (List.mem_append_right _ (by simpa only [h1] using hq))
            exact ⟨rest, (run_of_ingestEvent h1 hevent).trans hrun⟩

theorem run_to_correlation {request : Request} (hp : p ∈ request.correlations env db)
    (hok : correlationsMeet env ok db request) :
    ∃ rest, Run (step env) (stepMeets ok) (db, []) (p.1, p.2 :: rest) := by
  cases request with
  | createEvent payload => exact run_to_correlation_of_event hp hok
  | createEventsBulk payloads => exact run_to_correlation_of_bulk hp hok
  | createManualIncident payload => cases hp

end Inside

end Steps

section Telemetry

open Permissions (Timestamp)
open PyJson Query

-- a deployment with the default settings, ASCII telemetry and no anomaly model
def plainEnv : Env where
  settings := {}
  text := asciiText
  lower_empty := rfl
  scan := inTableOrder
  clock id := seconds id
  uuid4 id := id
  scoreEvent _ _ := some none
  anomalyConfidence score _ := score
  fixed4 _ := ""
  confidenceScore _ multiplier := multiplier
  redactSecrets text := text

def telemetry (eventId eventType : String) (second : Int) (username sourceIp : Option String)
    (metadata : Obj) : EventCreate where
  eventId := some eventId
  timestamp := seconds second
  source := "synthetic-auth"
  sourceType := "application"
  eventType := eventType
  category := "authentication"
  severity := none
  username := username
  sourceIp := sourceIp
  destinationIp := none
  hostname := none
  action := none
  status := none
  resource := none
  bytesSent := none
  bytesReceived := none
  metadata := metadata

def failures : List String → Int → Option String → Option String → List EventCreate
  | [], _, _, _ => []
  | eventId :: eventIds, second, username, sourceIp =>
      telemetry eventId "login_failure" second username sourceIp [] ::
        failures eventIds (second + 1) username sourceIp

def attack (eventIds : List String) (success : String) (second successSecond : Int)
    (username sourceIp : Option String) : List EventCreate :=
  failures eventIds second username sourceIp ++
    [telemetry success "login_success" successSecond username sourceIp []]

def tenIds : List String := ["0", "1", "2", "3", "4", "5", "6", "7", "8", "9"]

end Telemetry

end Correlation

import AiSoc.ResponseActions.Service
import Mathlib.Logic.Function.Basic

namespace Realtime

open Permissions (Uuid Timestamp)
open ResponseActions (ActionStatus)

section Envelopes

inductive MessageType where
  | eventCreated
  | alertCreated
  | incidentCreated
  | incidentUpdated
  | evidenceAdded
  | investigationQueued
  | investigationRunning
  | investigationCompleted
  | investigationFailed
  | response (status : ActionStatus)
  deriving DecidableEq

def MessageType.text : MessageType → String
  | .eventCreated => "event.created"
  | .alertCreated => "alert.created"
  | .incidentCreated => "incident.created"
  | .incidentUpdated => "incident.updated"
  | .evidenceAdded => "incident.evidence_added"
  | .investigationQueued => "investigation.queued"
  | .investigationRunning => "investigation.running"
  | .investigationCompleted => "investigation.completed"
  | .investigationFailed => "investigation.failed"
  | .response .proposed => "response.proposed"
  | .response .approved => "response.approved"
  | .response .rejected => "response.rejected"
  | .response .running => "response.running"
  | .response .succeeded => "response.succeeded"
  | .response .failed => "response.failed"

-- one call of RealtimePublisher.publish; change numbers the commit it announces, and is none
-- where the request changed nothing
structure Announcement where
  type : MessageType
  entityId : String
  version : Int
  incidentId : Option String
  change : Option Nat
  deriving DecidableEq

structure Env where
  -- int(updated_at.timestamp() * 1_000_000)
  microseconds : Timestamp → Int
  -- str(uuid.uuid4()) of the n-th envelope
  messageId : Nat → String
  messageId_injective : Function.Injective messageId
  messageId_ne_empty : ∀ n, messageId n ≠ ""

end Envelopes

section Rows

inductive InvestigationStatus where
  | queued
  | running
  | completed
  | failed
  deriving DecidableEq

structure Investigation where
  incidentId : Uuid
  status : InvestigationStatus
  updatedAt : Timestamp
  deriving DecidableEq

structure ActionRow where
  incidentId : Uuid
  status : ActionStatus
  updatedAt : Timestamp
  deriving DecidableEq

-- an entry of the incidents that correlate returns
structure Correlated where
  incidentId : Uuid
  created : Bool
  updatedAt : Timestamp
  deriving DecidableEq

-- outbox holds what each handler has still to publish after its commit
structure Backend where
  commits : Nat
  investigations : Uuid → Option Investigation
  actions : Uuid → Option ActionRow
  outbox : List (List Announcement)

def Backend.start : Backend := ⟨0, fun _ => none, fun _ => none, []⟩

end Rows

section Announcements

open PyStr

def queued (id : Uuid) (row : Investigation) (change : Option Nat) : Announcement :=
  ⟨.investigationQueued, uuidText id, 1, some (uuidText row.incidentId), change⟩

-- _publish_status
def publishStatus (env : Env) (type : MessageType) (id : Uuid) (row : Investigation)
    (change : Option Nat) : Announcement :=
  ⟨type, uuidText id, env.microseconds row.updatedAt, some (uuidText row.incidentId), change⟩

-- publish_action
def publishAction (env : Env) (id : Uuid) (row : ActionRow) (change : Option Nat) :
    Announcement :=
  ⟨.response row.status, uuidText id, env.microseconds row.updatedAt,
    some (uuidText row.incidentId), change⟩

-- create_incident
def manualIncident (id : Uuid) (change : Nat) : Announcement :=
  ⟨.incidentCreated, uuidText id, 1, none, some change⟩

-- create_evidence
def evidenceAdded (env : Env) (incidentId : Uuid) (createdAt : Timestamp) (change : Nat) :
    Announcement :=
  ⟨.evidenceAdded, uuidText incidentId, env.microseconds createdAt, some (uuidText incidentId),
    some change⟩

-- _publish_realtime
def publishRealtime (env : Env) (eventId : String) (alerts : List Uuid)
    (incidents : List Correlated) (change : Nat) : List Announcement :=
  ⟨.eventCreated, eventId, 1, none, some change⟩ ::
    (alerts.map fun id => ⟨.alertCreated, uuidText id, 1, none, some change⟩) ++
    incidents.map fun incident =>
      ⟨if incident.created then .incidentCreated else .incidentUpdated,
        uuidText incident.incidentId, env.microseconds incident.updatedAt,
        some (uuidText incident.incidentId), some change⟩

end Announcements

section Transactions

-- the committed transactions of the handlers that publish, and those that only change a row
inductive Transaction where
  | requestInvestigation (id incidentId : Uuid) (now : Timestamp)
  -- the queue refused the job
  | requestNotQueued (id incidentId : Uuid) (now : Timestamp)
  | claim (id : Uuid) (now : Timestamp)
  | complete (id : Uuid) (now : Timestamp)
  | fail (id : Uuid) (now : Timestamp)
  | createIncident (id : Uuid)
  | ingest (items : List (String × List Uuid × List Correlated))
  | addEvidence (incidentId : Uuid) (createdAt : Timestamp)
  | propose (id incidentId : Uuid) (now : Timestamp)
  | decide (id : Uuid) (approve : Bool) (now : Timestamp)
  | execute (id : Uuid) (now : Timestamp)
  | finish (id : Uuid) (succeeded : Bool) (now : Timestamp)
  deriving DecidableEq

namespace Backend

def commit (b : Backend) (announcements : List Announcement) : Backend :=
  { b with commits := b.commits + 1, outbox := b.outbox ++ [announcements] }

def setInvestigation (b : Backend) (id : Uuid) (row : Investigation) : Backend :=
  { b with investigations := Function.update b.investigations id (some row) }

def setAction (b : Backend) (id : Uuid) (row : ActionRow) : Backend :=
  { b with actions := Function.update b.actions id (some row) }

-- request_investigation, with the row and whether it was written
def requested (b : Backend) (id incidentId : Uuid) (now : Timestamp) : Investigation × Bool :=
  match b.investigations id with
  | none => (⟨incidentId, .queued, now⟩, true)
  | some row =>
      if row.status = .failed then ({ row with status := .queued, updatedAt := now }, true)
      else (row, false)

-- a change of one investigation, published under its own type
def moveInvestigation (env : Env) (b : Backend) (id : Uuid) (source : InvestigationStatus → Bool)
    (target : InvestigationStatus) (type : MessageType) (now : Timestamp) : Option Backend :=
  match b.investigations id with
  | none => none
  | some row =>
      if source row.status then
        let row := { row with status := target, updatedAt := now }
        some ((b.setInvestigation id row).commit
          [publishStatus env type id row (some b.commits)])
      else none

def moveAction (env : Env) (b : Backend) (id : Uuid) (source target : ActionStatus)
    (now : Timestamp) : Option Backend :=
  match b.actions id with
  | none => none
  | some row =>
      if row.status = source then
        let row := { row with status := target, updatedAt := now }
        some ((b.setAction id row).commit [publishAction env id row (some b.commits)])
      else none

def transact (env : Env) (b : Backend) : Transaction → Option Backend
  | .requestInvestigation id incidentId now =>
      let (row, written) := b.requested id incidentId now
      let change := if written then some b.commits else none
      some ((b.setInvestigation id row).commit [queued id row change])
  | .requestNotQueued id incidentId now =>
      let (row, written) := b.requested id incidentId now
      if written then
        some ((b.setInvestigation id { row with status := .failed }).commit [])
      else none
  | .claim id now =>
      b.moveInvestigation env id (· = .queued) .running .investigationRunning now
  -- complete and fail write whatever the status is by then
  | .complete id now =>
      b.moveInvestigation env id (fun _ => true) .completed .investigationCompleted now
  | .fail id now =>
      b.moveInvestigation env id (fun _ => true) .failed .investigationFailed now
  | .createIncident id => some (b.commit [manualIncident id b.commits])
  | .ingest items =>
      if items.all fun item => item.1 ≠ "" then
        some (b.commit (items.flatMap fun item =>
          publishRealtime env item.1 item.2.1 item.2.2 b.commits))
      else none
  | .addEvidence incidentId createdAt =>
      some (b.commit [evidenceAdded env incidentId createdAt b.commits])
  | .propose id incidentId now =>
      match b.actions id with
      | none =>
          let row := ⟨incidentId, .proposed, now⟩
          some ((b.setAction id row).commit [publishAction env id row (some b.commits)])
      | some row => some (b.commit [publishAction env id row none])
  | .decide id approve now =>
      b.moveAction env id .proposed (if approve then .approved else .rejected) now
  | .execute id now => b.moveAction env id .approved .running now
  | .finish id succeeded now =>
      b.moveAction env id .running (if succeeded then .succeeded else .failed) now

end Backend

end Transactions

end Realtime

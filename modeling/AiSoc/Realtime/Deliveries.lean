import AiSoc.Library.Transition
import AiSoc.Realtime.Updates

namespace Realtime

open Permissions (Uuid Timestamp)
open PyStr (uuidText)
open Suppression Transition

section Runs

-- one call of handleMessage, with what had been published before the message
structure Delivery where
  earlier : List Announcement
  message : Announcement
  first : Bool
  before : Provider
  after : Provider

-- next counts the messages that were delivered
structure World where
  backend : Backend
  -- the transactions so far
  history : List Transaction
  published : List Announcement
  provider : Provider
  next : Nat
  deliveries : List Delivery

def World.start : World := ⟨.start, [], [], .start, 0, []⟩

inductive Step where
  | transact (transaction : Transaction)
  -- the first announcement that the handler has not published
  | publish (handler : Nat)
  | publishFails (handler : Nat)
  -- the next message, or one that was delivered before
  | deliver (index : Nat)
  deriving DecidableEq

-- model_dump_json and JSON.parse
def parsed (env : Env) (index : Nat) (m : Announcement) : RealtimeMessage where
  id := some (env.messageId index)
  type := some m.type.text
  entityId := some m.entityId
  version := some m.version
  incidentId := m.incidentId

def popOutbox (outbox : List (List Announcement)) (handler : Nat) :
    Option (Announcement × List (List Announcement)) :=
  match outbox[handler]? with
  | some (m :: rest) => some (m, outbox.set handler rest)
  | _ => none

def deliveryOf (env : Env) (w : World) (index : Nat) (m : Announcement) : Delivery where
  earlier := w.published.take index
  message := m
  first := decide (index = w.next)
  before := w.provider
  after := w.provider.handleMessage (some (parsed env index m))

def World.deliver (env : Env) (w : World) (index : Nat) : Option World :=
  if index ≤ w.next then
    w.published[index]?.map fun m =>
      { w with
        provider := (deliveryOf env w index m).after
        next := max w.next (index + 1)
        deliveries := w.deliveries ++ [deliveryOf env w index m] }
  else none

def step (env : Env) (w : World) : Step → Option World
  | .transact transaction =>
      (w.backend.transact env transaction).map fun b =>
        { w with backend := b, history := w.history ++ [transaction] }
  | .publish handler =>
      (popOutbox w.backend.outbox handler).map fun popped =>
        { w with
          backend := { w.backend with outbox := popped.2 }
          published := w.published ++ [popped.1] }
  | .publishFails handler =>
      (popOutbox w.backend.outbox handler).map fun popped =>
        { w with backend := { w.backend with outbox := popped.2 } }
  | .deliver index => w.deliver env index

end Runs

section Claims

def SameEntity (m m' : Announcement) : Prop :=
  m'.type = m.type ∧ m'.entityId = m.entityId

instance (m m' : Announcement) : Decidable (SameEntity m m') :=
  inferInstanceAs (Decidable (_ ∧ _))

def Newer (earlier : List Announcement) (m : Announcement) : Prop :=
  m.change ≠ none ∧ ∀ m' ∈ earlier, SameEntity m m' →
    ∀ change' ∈ m'.change, ∀ change ∈ m.change, change' < change

instance (earlier : List Announcement) (m : Announcement) : Decidable (Newer earlier m) :=
  inferInstanceAs (Decidable (_ ∧ _))

-- what a transaction announces, with the clock of the row that the version is read from, and
-- none where publish is given no version
structure Mark where
  type : MessageType
  entityId : String
  clock : Option Timestamp
  deriving DecidableEq

def Transaction.marks : Transaction → List Mark
  | .requestInvestigation id _ _ => [⟨.investigationQueued, uuidText id, none⟩]
  | .requestNotQueued _ _ _ => []
  | .claim id now => [⟨.investigationRunning, uuidText id, some now⟩]
  | .complete id now => [⟨.investigationCompleted, uuidText id, some now⟩]
  | .fail id now => [⟨.investigationFailed, uuidText id, some now⟩]
  | .createIncident id => [⟨.incidentCreated, uuidText id, none⟩]
  | .ingest items => items.flatMap fun item =>
      ⟨.eventCreated, item.1, none⟩ ::
        (item.2.1.map fun id => ⟨.alertCreated, uuidText id, none⟩) ++
        item.2.2.map fun incident =>
          ⟨if incident.created then .incidentCreated else .incidentUpdated,
            uuidText incident.incidentId, some incident.updatedAt⟩
  | .addEvidence incidentId createdAt => [⟨.evidenceAdded, uuidText incidentId, some createdAt⟩]
  | .propose id _ now => [⟨.response .proposed, uuidText id, some now⟩]
  | .decide id approve now =>
      [⟨.response (if approve then .approved else .rejected), uuidText id, some now⟩]
  | .execute id now => [⟨.response .running, uuidText id, some now⟩]
  | .finish id succeeded now =>
      [⟨.response (if succeeded then .succeeded else .failed), uuidText id, some now⟩]

-- the investigation or action that a request finds, so that it changes nothing
def Backend.repeats (b : Backend) : Transaction → Option Uuid
  | .requestInvestigation id _ _ =>
      ((b.investigations id).filter fun row => row.status ≠ .failed).map fun _ => id
  | .propose id _ _ => (b.actions id).map fun _ => id
  | _ => none

def Mark.Dated (env : Env) (mark : Mark) : Prop :=
  ∀ t ∈ mark.clock, -1 < env.microseconds t

def Mark.Before (env : Env) (past mark : Mark) : Prop :=
  match past.clock, mark.clock with
  | some t, some t' => env.microseconds t < env.microseconds t'
  | _, _ => False

def Mark.Later (env : Env) (history : List Transaction) (mark : Mark) : Prop :=
  ∀ t ∈ history, ∀ past ∈ t.marks, past.type = mark.type → past.entityId = mark.entityId →
    past.Before env mark

def Backend.Silent (b : Backend) (id : Uuid) : Prop :=
  ∀ handler ∈ b.outbox, ∀ m ∈ handler, m.entityId ≠ uuidText id

def Timely (env : Env) (w : World) : Step → Prop
  | .transact transaction =>
      match w.backend.repeats transaction with
      | some id => w.backend.Silent id
      | none => ∀ mark ∈ transaction.marks, mark.Dated env ∧ mark.Later env w.history
  | _ => True

instance (env : Env) (mark : Mark) : Decidable (mark.Dated env) :=
  inferInstanceAs (Decidable (∀ t ∈ mark.clock, -1 < env.microseconds t))

instance (env : Env) (past mark : Mark) : Decidable (past.Before env mark) := by
  unfold Mark.Before
  split <;> infer_instance

instance (env : Env) (history : List Transaction) (mark : Mark) :
    Decidable (mark.Later env history) :=
  inferInstanceAs (Decidable (∀ t ∈ history, ∀ past ∈ t.marks, past.type = mark.type →
    past.entityId = mark.entityId → past.Before env mark))

instance (b : Backend) (id : Uuid) : Decidable (b.Silent id) :=
  inferInstanceAs (Decidable (∀ handler ∈ b.outbox, ∀ m ∈ handler, m.entityId ≠ uuidText id))

instance (env : Env) (w : World) (event : Step) : Decidable (Timely env w event) := by
  unfold Timely
  split
  · split <;> infer_instance
  · infer_instance

def Raised (earlier : List Announcement) (m : Announcement) : Prop :=
  -1 < m.version ∧ ∀ m' ∈ earlier, SameEntity m m' → m'.version < m.version

instance (earlier : List Announcement) (m : Announcement) : Decidable (Raised earlier m) :=
  inferInstanceAs (Decidable (_ ∧ _))

def Delivery.recorded (d : Delivery) : Int :=
  (d.before.receiver.versions (versionKey d.message.type.text d.message.entityId)).getD (-1)

def Delivery.Heard (d : Delivery) : Prop :=
  d.recorded < d.message.version ∧
    d.after.invalidated = d.before.invalidated ++ concerned d.message ∧
    d.after.newEventCount = d.before.newEventCount + newEvents d.message

def Delivery.Quiet (d : Delivery) : Prop :=
  d.after.invalidated = d.before.invalidated ∧ d.after.newEventCount = d.before.newEventCount

structure Attentive (w : World) : Prop where
  newer : ∀ d ∈ w.deliveries, d.first = true → Newer d.earlier d.message → d.Heard
  repeated : ∀ d ∈ w.deliveries, d.first = false → d.Quiet
  older : ∀ d ∈ w.deliveries, d.message.version < d.recorded → d.Quiet

end Claims

end Realtime

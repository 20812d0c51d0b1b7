import AiSoc.Library.PyStr
import AiSoc.Security.Permissions

namespace ResponseActions

open Permissions (Uuid Timestamp)

inductive ActionType where
  | revokeAppSessions
  | disableAwsAccessKey
  | blockS3PublicAccess
  deriving DecidableEq, Repr

inductive ActionStatus where
  | proposed
  | approved
  | running
  | succeeded
  | failed
  | rejected
  deriving DecidableEq, Repr

inductive ActionResult where
  | sessionsRevoked (userId : Uuid)
  | awsVerified (awsRequestId : String)
  deriving DecidableEq, Repr

structure ResponseActionCreate where
  actionType : ActionType
  target : String
  accountId : Option String
  rationale : String
  impact : String
  evidenceRefs : List String
  idempotencyKey : String
  deriving DecidableEq, Repr

structure ResponseAction where
  incidentId : Uuid
  actionType : ActionType
  target : String
  accountId : Option String
  status : ActionStatus
  rationale : String
  impact : String
  evidenceRefs : List String
  idempotencyKey : String
  proposedBy : Uuid
  approvedBy : Option Uuid
  result : Option ActionResult
  error : Option String
  updatedAt : Timestamp
  deriving DecidableEq, Repr

structure Settings where
  awsResponseEnabled : Bool := false
  deriving DecidableEq, Repr

def ResponseActionCreate.toRow (payload : ResponseActionCreate) (incidentId actorId : Uuid)
    (now : Timestamp) : ResponseAction where
  incidentId := incidentId
  actionType := payload.actionType
  target := payload.target
  accountId := payload.accountId
  status := .proposed
  rationale := payload.rationale
  impact := payload.impact
  evidenceRefs := payload.evidenceRefs
  idempotencyKey := payload.idempotencyKey
  proposedBy := actorId
  approvedBy := none
  result := none
  error := none
  updatedAt := now

-- what the SELECT statements of propose return before it inserts anything
structure ProposeReads where
  incidentExists : Bool
  existing : Option ResponseAction
  validRefs : List String
  targetUserExists : Bool

def propose (reads : ProposeReads) (incidentId : Uuid) (payload : ResponseActionCreate)
    (actorId : Uuid) (now : Timestamp) : Except String (ResponseAction × Bool) :=
  if !reads.incidentExists then .error "Incident not found"
  else
    match reads.existing with
    | some existing =>
        if existing.actionType ≠ payload.actionType ∨ existing.target ≠ payload.target then
          .error "Idempotency key is already used for another action"
        else .ok (existing, false)
    | none =>
        if payload.evidenceRefs.any fun ref => !reads.validRefs.contains ref then
          .error "Action cites evidence outside this incident"
        else if payload.actionType = .revokeAppSessions ∧ !reads.targetUserExists then
          .error "Target app user not found"
        else .ok (payload.toRow incidentId actorId now, true)

def decide (settings : Settings) (action : ResponseAction) (actorId : Uuid) (approve : Bool)
    (now : Timestamp) : Except String ResponseAction :=
  if action.status ≠ .proposed then .error "Response action has already been decided"
  else if action.proposedBy = actorId then .error "Proposer cannot approve their own action"
  else if approve ∧ action.actionType ≠ .revokeAppSessions ∧ !settings.awsResponseEnabled then
    .error "AWS response is disabled"
  else
    .ok { action with
      status := if approve then .approved else .rejected
      approvedBy := some actorId
      updatedAt := now }

-- the UPDATE that claims an approved action for one worker
def claimed (now : Timestamp) (action : ResponseAction) : ResponseAction :=
  { action with status := .running, updatedAt := now }

def succeeded (outcome : ActionResult) (now : Timestamp) (action : ResponseAction) :
    ResponseAction :=
  { action with status := .succeeded, result := some outcome, error := none, updatedAt := now }

def failed (error : String) (now : Timestamp) (action : ResponseAction) : ResponseAction :=
  { action with status := .failed, error := some (PyStr.slice 1000 error), updatedAt := now }

theorem propose_new_status {reads : ProposeReads} {incidentId actorId : Uuid}
    {payload : ResponseActionCreate} {now : Timestamp} {row : ResponseAction}
    (h : propose reads incidentId payload actorId now = .ok (row, true)) :
    row = payload.toRow incidentId actorId now := by
  unfold propose at h
  split at h
  · cases h
  · split at h
    · split at h <;> cases h
    · split at h
      · cases h
      · split at h <;> cases h
        rfl

theorem decide_ok_iff {settings : Settings} {action row : ResponseAction} {actorId : Uuid}
    {approve : Bool} {now : Timestamp} :
    decide settings action actorId approve now = .ok row ↔
      action.status = .proposed ∧ action.proposedBy ≠ actorId ∧
        ¬ (approve = true ∧ action.actionType ≠ .revokeAppSessions ∧
          settings.awsResponseEnabled = false) ∧
        row = { action with
          status := if approve then .approved else .rejected
          approvedBy := some actorId
          updatedAt := now } := by
  unfold decide
  constructor
  · intro h
    split at h
    · cases h
    · split at h
      · cases h
      · split at h
        · cases h
        · rename_i h1 h2 h3
          cases h
          refine ⟨by simpa using h1, h2, by simpa using h3, rfl⟩
  · rintro ⟨h1, h2, h3, rfl⟩
    rw [if_neg (by simp [h1]), if_neg h2, if_neg (by simpa using h3)]

end ResponseActions

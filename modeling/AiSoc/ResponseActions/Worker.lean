import AiSoc.Library.Process
import AiSoc.Library.RowStore
import AiSoc.ResponseActions.Service

namespace ResponseActions

open Permissions (Uuid Timestamp)
open RowStore Process

abbrev ActionTable := Table Uuid ResponseAction

structure Db where
  actions : ActionTable
  queue : List Uuid
  -- revoke_user statements of the open transactions, and those already committed
  revoking : Nat → List (Uuid × Uuid)
  revoked : List (Uuid × Uuid)
  -- history: side effects started, committed statuses (newest first), claiming process
  effects : List Uuid
  trail : Uuid → List ActionStatus
  claimedBy : Uuid → Option Nat

def Db.empty : Db :=
  ⟨.empty, [], fun _ => [], [], [], fun _ => [], fun _ => none⟩

inductive Stmt where
  | now
  | proposeReads (incidentId : Uuid) (idempotencyKey : String)
  | insertAction (row : ResponseAction)
  | getForUpdate (id : Uuid)
  | get (id : Uuid)
  | write (id : Uuid) (f : ResponseAction → ResponseAction)
  | claim (id : Uuid) (now : Timestamp)
  | scanApproved
  | rpush (id : Uuid)
  | lpop
  | userExists (userId : Uuid)
  | revokeUser (id userId : Uuid)
  | executeAwsAction (id : Uuid)
  | commit
  | rollback
  -- an exception that leaves the process
  | raise

@[reducible] def Result : Stmt → Type
  | .now => Timestamp
  | .proposeReads _ _ => ProposeReads
  | .insertAction _ => Uuid
  | .getForUpdate _ => Option ResponseAction
  | .get _ => Option ResponseAction
  | .write _ _ => Unit
  | .claim _ _ => Option ResponseAction
  | .scanApproved => List Uuid
  | .rpush _ => Unit
  | .lpop => Option Uuid
  | .userExists _ => Bool
  | .revokeUser _ _ => Except String Unit
  | .executeAwsAction _ => Except String String
  | .commit => Unit
  | .rollback => Unit
  | .raise => Empty

-- what the environment decides: clocks, fresh ids, other tables, AWS, database errors
inductive Choice where
  | auto
  | time (now : Timestamp)
  | uuid (id : Uuid)
  | uuids (ids : List Uuid)
  | flag (b : Bool)
  | reads (incidentExists : Bool) (validRefs : List String) (targetUserExists : Bool)
  | fails (error : String)
  | aws (requestId : String)

def findByKey (tb : ActionTable) (t : Nat) (incidentId : Uuid) (key : String) :
    Option ResponseAction :=
  (tb.keys.filterMap (tb.view t)).find? fun row =>
    row.incidentId = incidentId ∧ row.idempotencyKey = key

def isApproved (row : ResponseAction) : Bool :=
  row.status = .approved

def committedTrail (db : Db) (t : Nat) (id : Uuid) : List ActionStatus :=
  match db.actions.lock id with
  | some (u, row) =>
      if u = t ∧ (db.actions.committed id).map (·.status) ≠ some row.status then
        row.status :: db.trail id
      else db.trail id
  | none => db.trail id

def committedClaim (db : Db) (t : Nat) (id : Uuid) : Option Nat :=
  match db.actions.lock id with
  | some (u, row) =>
      if u = t ∧ row.status = .running ∧
          (db.actions.committed id).map (·.status) ≠ some .running then some t
      else db.claimedBy id
  | none => db.claimedBy id

def commitTx (t : Nat) (db : Db) : Db :=
  { db with
    actions := db.actions.commit t
    revoking := Function.update db.revoking t []
    revoked := db.revoking t ++ db.revoked
    trail := committedTrail db t
    claimedBy := committedClaim db t }

def rollbackTx (t : Nat) (db : Db) : Db :=
  { db with
    actions := db.actions.rollback t
    revoking := Function.update db.revoking t [] }

def exec (t : Nat) : (q : Stmt) → Choice → Db → Option (Result q × Db)
  | .now, .time now, db => some (now, db)
  | .proposeReads incidentId key, .reads incidentExists validRefs targetUserExists, db =>
      some (⟨incidentExists, findByKey db.actions t incidentId key, validRefs,
        targetUserExists⟩, db)
  | .insertAction row, .uuid id, db =>
      (db.actions.insert t id row).map fun tb => (id, { db with actions := tb })
  | .getForUpdate id, _, db =>
      (db.actions.getForUpdate t id).map fun out => (out.1, { db with actions := out.2 })
  | .get id, _, db => some (db.actions.view t id, db)
  | .write id f, _, db =>
      (db.actions.recheckRow t id (fun _ => true) f).map fun out =>
        ((), { db with actions := out.2 })
  | .claim id now, _, db =>
      (db.actions.updateByKey t id isApproved (claimed now)).map fun out =>
        (out.1, { db with actions := out.2 })
  | .scanApproved, .uuids ids, db =>
      if ids.length ≤ 100 ∧ ids.all fun id => (db.actions.view t id).any isApproved then
        some (ids, db)
      else none
  | .rpush id, _, db => some ((), { db with queue := db.queue ++ [id] })
  | .lpop, _, db => some (db.queue.head?, { db with queue := db.queue.tail })
  | .userExists _, .flag b, db => some (b, db)
  | .revokeUser id userId, .auto, db =>
      some (.ok (), { db with
        effects := id :: db.effects
        revoking := Function.update db.revoking t ((id, userId) :: db.revoking t) })
  | .revokeUser id _, .fails error, db =>
      some (.error error, { db with effects := id :: db.effects })
  | .executeAwsAction id, .aws requestId, db =>
      some (.ok requestId, { db with effects := id :: db.effects })
  | .executeAwsAction id, .fails error, db =>
      some (.error error, { db with effects := id :: db.effects })
  | .commit, _, db => some ((), commitTx t db)
  | .rollback, _, db => some ((), rollbackTx t db)
  | _, _, _ => none

abbrev Proc (α : Type) := Prog Stmt Result α

abbrev call (q : Stmt) : Proc (Result q) := Prog.call q

def raise {α : Type} : Proc α := .stmt .raise nofun

def proposeAction (incidentId actorId : Uuid) (payload : ResponseActionCreate) : Proc Unit := do
  let reads ← call (.proposeReads incidentId payload.idempotencyKey)
  let now ← call .now
  match propose reads incidentId payload actorId now with
  | .error _ => raise
  | .ok (_, false) => call .commit
  | .ok (row, true) =>
      let _ ← call (.insertAction row)
      call .commit

def decideAction (settings : Settings) (id actorId : Uuid) (approve : Bool) : Proc Unit := do
  match ← call (.getForUpdate id) with
  | none => raise
  | some action =>
      let now ← call .now
      match ResponseActions.decide settings action actorId approve now with
      | .error _ => raise
      | .ok row =>
          call (.write id fun _ => row)
          call .commit
          if approve then call (.rpush id) else return ()

def sideEffect (id : Uuid) (action : ResponseAction) : Proc (Except String ActionResult) := do
  if action.actionType = .revokeAppSessions then
    match PyStr.uuid action.target with
    | none => return .error "badly formed hexadecimal UUID string"
    | some userId =>
        if ← call (.userExists userId) then
          match ← call (.revokeUser id userId) with
          | .ok _ => return .ok (.sessionsRevoked userId)
          | .error error => return .error error
        else return .error "Target app user no longer exists"
  else
    match ← call (.executeAwsAction id) with
    | .ok requestId => return .ok (.awsVerified requestId)
    | .error error => return .error error

def finishAction (id : Uuid) : Except String ActionResult → Proc Unit
  | .ok outcome => do
      let now ← call .now
      call (.write id (succeeded outcome now))
      call .commit
  | .error error => do
      call .rollback
      match ← call (.get id) with
      | none => raise
      | some _ =>
          let now ← call .now
          call (.write id (failed error now))
          call .commit

def executeAction (id : Uuid) : Proc Unit := do
  let now ← call .now
  match ← call (.claim id now) with
  | none => call .rollback
  | some action =>
      call .commit
      let outcome ← sideEffect id action
      finishAction id outcome

def executeAll : List Uuid → Proc Unit
  | [] => return ()
  | id :: ids => do
      executeAction id
      executeAll ids

-- one pass of the loop in run_worker
def runWorker (recover : Bool) : Proc Unit := do
  if recover then
    let pending ← call .scanApproved
    call .rollback
    executeAll pending
  match ← call .lpop with
  | some id => executeAction id
  | none => return ()

inductive Call where
  | propose (incidentId actorId : Uuid) (payload : ResponseActionCreate)
  | decide (id actorId : Uuid) (approve : Bool)
  | worker (recover : Bool)
  -- a delivery the queue should not have made: duplicated, stale or forged
  | deliver (id : Uuid)
  -- a queue entry lost by Redis
  | lose

def body (settings : Settings) : Call → Proc Unit
  | .propose incidentId actorId payload => proposeAction incidentId actorId payload
  | .decide id actorId approve => decideAction settings id actorId approve
  | .worker recover => runWorker recover
  | .deliver id => executeAction id
  | .lose => do
      let _ ← call .lpop
      return ()

def machine (settings : Settings) : Machine where
  Db := Db
  Stmt := Stmt
  Result := Result
  Choice := Choice
  Call := Call
  Out := Unit
  exec := exec
  close := rollbackTx
  body := body settings

end ResponseActions

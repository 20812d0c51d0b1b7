import AiSoc.Investigation.Workflow
import AiSoc.Library.AdvisoryLock
import AiSoc.Library.Process
import AiSoc.Library.RowStore

namespace Jobs

open Permissions (Uuid Timestamp)
open Investigation (InvestigationRow)
open PyJson (Json)
open RowStore Process AdvisoryLock

-- the columns of the unique constraint uq_investigation_context_version
structure Context where
  incidentId : Uuid
  contextHash : String
  promptVersion : String
  deriving DecidableEq

structure Job extends InvestigationRow where
  provider : String
  model : String
  promptVersion : String
  contextHash : String

def Job.context (job : Job) : Context :=
  ⟨job.incidentId, job.contextHash, job.promptVersion⟩

section Columns

-- an ORM flush writes the columns whose value is not the one that was loaded
def assign {α : Type} [DecidableEq α] (loaded value current : α) : α :=
  if value = loaded then current else value

def claimed (now : Timestamp) (job : Job) : Job :=
  { job with
    status := "running"
    startedAt := some now
    completedAt := none
    error := none
    errorClass := none
    nextRetryAt := none
    attemptCount := job.attemptCount + 1
    updatedAt := now }

def requeued (loaded : Job) (provider model : String) (now : Timestamp) (job : Job) : Job :=
  { job with
    provider := assign loaded.provider provider job.provider
    model := assign loaded.model model job.model
    status := assign loaded.status "queued" job.status
    queuedAt := assign loaded.queuedAt now job.queuedAt
    startedAt := assign loaded.startedAt none job.startedAt
    completedAt := assign loaded.completedAt none job.completedAt
    error := assign loaded.error none job.error
    errorClass := assign loaded.errorClass none job.errorClass
    nextRetryAt := assign loaded.nextRetryAt none job.nextRetryAt
    validationErrors := assign loaded.validationErrors [] job.validationErrors
    updatedAt := assign loaded.updatedAt now job.updatedAt }

def checkpointed (contextSnapshot : Json) (now : Timestamp) (job : Job) : Job :=
  { job with contextSnapshot := contextSnapshot, updatedAt := now }

structure Completion where
  result : Json
  providerResponseIds : List String
  inputTokens : Nat
  outputTokens : Nat

def completed (loaded : Job) (contextSnapshot : Json) (completion : Completion)
    (now : Timestamp) (job : Job) : Job :=
  { job with
    status := assign loaded.status "completed" job.status
    contextSnapshot := contextSnapshot
    result := some completion.result
    providerResponseIds :=
      assign loaded.providerResponseIds completion.providerResponseIds job.providerResponseIds
    inputTokens := assign loaded.inputTokens completion.inputTokens job.inputTokens
    outputTokens := assign loaded.outputTokens completion.outputTokens job.outputTokens
    validationErrors := assign loaded.validationErrors [] job.validationErrors
    error := assign loaded.error none job.error
    errorClass := assign loaded.errorClass none job.errorClass
    nextRetryAt := assign loaded.nextRetryAt none job.nextRetryAt
    completedAt := assign loaded.completedAt (some now) job.completedAt
    updatedAt := assign loaded.updatedAt now job.updatedAt }

-- str(exc) and, for an InvestigationValidationError, exc.errors
structure Failure where
  message : String
  errors : List String

def failed (loaded : Job) (failure : Failure) (now : Timestamp) (job : Job) : Job :=
  { job with
    status := assign loaded.status "failed" job.status
    error := assign loaded.error (some (PyStr.slice 4000 failure.message)) job.error
    errorClass := assign loaded.errorClass none job.errorClass
    nextRetryAt := assign loaded.nextRetryAt none job.nextRetryAt
    validationErrors := assign loaded.validationErrors failure.errors job.validationErrors
    completedAt := assign loaded.completedAt (some now) job.completedAt
    updatedAt := assign loaded.updatedAt now job.updatedAt }

end Columns

-- what a live process still has to do for an investigation
inductive Duty where
  | pushing (id : Uuid)
  | handling (id : Uuid)
  | popped (id : Uuid)
  | working (id : Uuid)
  deriving DecidableEq

def Duty.id : Duty → Uuid
  | .pushing id => id
  | .handling id => id
  | .popped id => id
  | .working id => id

structure History where
  duty : Nat → Option Duty
  -- duties of processes that crashed, and the jobs that such a crash left without anyone
  lost : List (Nat × Duty)
  stranded : List Uuid
  -- jobs on which the handler of a failed enqueue overwrote the status of a claimed job
  overrun : List Uuid
  -- the process whose claim was the last to be committed
  runner : Uuid → Option Nat
  -- committed transitions into queued, calls of enqueue, committed claims, workflow starts
  queuings : List (Nat × Uuid)
  enqueues : List (Nat × Uuid)
  claims : List (Nat × Uuid)
  runs : List (Nat × Uuid)

def History.empty : History :=
  ⟨fun _ => none, [], [], [], fun _ => none, [], [], [], []⟩

def History.setDuty (h : History) (t : Nat) (duty : Option Duty) : History :=
  { h with duty := Function.update h.duty t duty }

structure Db where
  jobs : Table Uuid Job
  advisory : Locks Int
  queue : List Uuid
  nextId : Uuid
  history : History

def Db.start (queue : List Uuid) : Db :=
  ⟨.empty, .empty, queue, 0, .empty⟩

structure Incident where
  updatedAt : Timestamp
  riskScore : Int
  lastSeen : Timestamp

structure Env where
  lower : String → String
  sha256 : String → String
  hashtextextended : String → Int
  isoformat : Timestamp → String
  incidents : Uuid → Option Incident
  -- ids of the evidence rows of an incident, in order
  evidence : Uuid → List Uuid
  llmEnabled : Bool
  llmProvider : String
  llmApiKey : Option String
  llmModel : String
  llmPromptVersion : String

inductive Stmt where
  | now
  | uuid4
  | getIncident (id : Uuid)
  | evidenceIds (incidentId : Uuid)
  | acquireContextLock (lockKey : String)
  | findForContext (context : Context)
  | create (job : Job)
  | requeue (loaded : Job) (provider model : String) (now : Timestamp)
  | claim (id : Uuid) (now : Timestamp)
  | get (id : Uuid)
  | checkpointContext (id : Uuid) (contextSnapshot : Json) (now : Timestamp)
  | complete (loaded : Job) (contextSnapshot : Json) (completion : Completion) (now : Timestamp)
  | fail (loaded : Job) (failure : Failure) (now : Timestamp)
  | rpush (id : Uuid)
  | blpop
  -- another copy of a queue entry
  | redeliver (id : Uuid)
  -- the workflow up to its checkpoint, its nodes after it, and an exception after the last flush
  | build (id incidentId : Uuid)
  | analyse
  | persisted
  | aclose
  | commit
  | rollback

@[reducible] def Result : Stmt → Type
  | .now => Timestamp
  | .uuid4 => Uuid
  | .getIncident _ => Option Incident
  | .evidenceIds _ => List Uuid
  | .findForContext _ => Option Job
  | .claim _ _ => Option Job
  | .get _ => Option Job
  | .rpush _ => Except String Unit
  | .blpop => Option Uuid
  | .build _ _ => Except Failure Json
  | .analyse => Except Failure Completion
  | .persisted => Option Failure
  | _ => Unit

-- what the environment decides: clocks, the outcome of a push, what the workflow meets
inductive Choice where
  | auto
  | time (now : Timestamp)
  | pushRaises (applied : Bool) (error : String)
  | raises (failure : Failure)
  | snapshot (contextSnapshot : Json)
  | completion (completion : Completion)

def heldBy (tb : Table Uuid Job) (t : Nat) (id : Uuid) : Option (Uuid × Job) :=
  match tb.lock id with
  | some (u, job) => if u = t then some (id, job) else none
  | none => none

def held (db : Db) (t : Nat) : Option (Uuid × Job) :=
  db.jobs.keys.findSome? (heldBy db.jobs t)

def statusOf (job : Option Job) : Option String :=
  job.map fun job => job.status

-- the job whose status the commit changes, and its new status
def transition (db : Db) (t : Nat) : Option (Uuid × String) :=
  match held db t with
  | some (id, job) =>
      if statusOf (db.jobs.committed id) = some job.status then none else some (id, job.status)
  | none => none

def Duty.afterCommit : Option Duty → Option Duty
  | some (.working id) => some (.working id)
  | _ => none

def History.commit (h : History) (t : Nat) : Option (Uuid × String) → History
  | some (id, status) =>
      if status = "queued" then
        { h.setDuty t (some (.pushing id)) with queuings := (t, id) :: h.queuings }
      else if status = "running" then
        { h.setDuty t (some (.working id)) with
          claims := (t, id) :: h.claims
          runner := Function.update h.runner id (some t) }
      else h.setDuty t (Duty.afterCommit (h.duty t))
  | none => h.setDuty t (Duty.afterCommit (h.duty t))

def commitTx (t : Nat) (db : Db) : Db :=
  { db with
    jobs := db.jobs.commit t
    advisory := db.advisory.release t
    history := db.history.commit t (transition db t) }

def rollbackTx (t : Nat) (db : Db) : Db :=
  { db with jobs := db.jobs.rollback t, advisory := db.advisory.release t }

-- the job is queued without an entry in the queue, or the process is its worker
def strands (db : Db) (t : Nat) (id : Uuid) : Bool :=
  match db.jobs.committed id with
  | some job =>
      job.status = "queued" && id ∉ db.queue ||
        job.status = "running" && db.history.runner id = some t
  | none => false

def History.close (h : History) (t : Nat) (strands : Uuid → Bool) : History :=
  match h.duty t with
  | some duty =>
      { h.setDuty t none with
        lost := (t, duty) :: h.lost
        stranded := if strands duty.id then duty.id :: h.stranded else h.stranded }
  | none => h

-- the end of a process; what it still had to do is lost
def closeTx (t : Nat) (db : Db) : Db :=
  { rollbackTx t db with history := db.history.close t (strands db t) }

def findForContext (db : Db) (t : Nat) (context : Context) : Option Job :=
  (db.jobs.keys.filterMap (db.jobs.view t)).find? fun job => job.context = context

def isQueued (job : Job) : Bool :=
  job.status = "queued"

def isClaimed (job : Job) : Bool :=
  job.status = "running" || job.status = "completed"

-- the failure handler of request_investigation finds that a worker has claimed the job
def overruns (db : Db) (t : Nat) (id : Uuid) : Bool :=
  match db.history.duty t with
  | some (.handling _) => (db.jobs.view t id).any isClaimed
  | _ => false

def writeJob (t : Nat) (id : Uuid) (f : Job → Job) (db : Db) : Option (Unit × Db) :=
  (db.jobs.recheckRow t id (fun _ => true) f).map fun out => ((), { db with jobs := out.2 })

def exec (env : Env) (t : Nat) : (q : Stmt) → Choice → Db → Option (Result q × Db)
  | .now, .time now, db => some (now, db)
  | .uuid4, _, db => some (db.nextId, { db with nextId := db.nextId + 1 })
  | .getIncident id, _, db => some (env.incidents id, db)
  | .evidenceIds incidentId, _, db => some (env.evidence incidentId, db)
  | .acquireContextLock lockKey, _, db =>
      (db.advisory.acquire t (env.hashtextextended lockKey)).map fun locks =>
        ((), { db with advisory := locks })
  | .findForContext context, _, db => some (findForContext db t context, db)
  | .create job, _, db =>
      (db.jobs.insert t job.id job).map fun tb => ((), { db with jobs := tb })
  | .requeue loaded provider model now, _, db =>
      writeJob t loaded.id (requeued loaded provider model now) db
  | .claim id now, _, db =>
      (db.jobs.updateByKey t id isQueued (claimed now)).map fun out =>
        (out.1,
          { db with
            jobs := out.2
            history := if out.1.isSome then db.history else db.history.setDuty t none })
  | .get id, _, db => some (db.jobs.view t id, db)
  | .checkpointContext id contextSnapshot now, _, db =>
      writeJob t id (checkpointed contextSnapshot now) db
  | .complete loaded contextSnapshot completion now, _, db =>
      writeJob t loaded.id (completed loaded contextSnapshot completion now) db
  | .fail loaded failure now, _, db =>
      (writeJob t loaded.id (failed loaded failure now) db).map fun out =>
        ((),
          { out.2 with
            history :=
              if overruns db t loaded.id then
                { db.history with overrun := loaded.id :: db.history.overrun }
              else db.history })
  | .rpush id, .auto, db =>
      some (.ok (),
        { db with
          queue := db.queue ++ [id]
          history := { db.history.setDuty t none with enqueues := (t, id) :: db.history.enqueues } })
  | .rpush id, .pushRaises applied error, db =>
      some (.error error,
        { db with
          queue := if applied then db.queue ++ [id] else db.queue
          history :=
            { db.history.setDuty t (some (.handling id)) with
              enqueues := (t, id) :: db.history.enqueues } })
  | .blpop, _, db =>
      match db.queue with
      | [] => some (none, db)
      | id :: rest =>
          some (some id, { db with queue := rest, history := db.history.setDuty t (some (.popped id)) })
  | .redeliver id, _, db => some ((), { db with queue := db.queue ++ [id] })
  | .build id _, .raises failure, db =>
      some (.error failure, { db with history := { db.history with runs := (t, id) :: db.history.runs } })
  | .build id _, .snapshot contextSnapshot, db =>
      some (.ok contextSnapshot,
        { db with history := { db.history with runs := (t, id) :: db.history.runs } })
  | .analyse, .raises failure, db => some (.error failure, db)
  | .analyse, .completion completion, db => some (.ok completion, db)
  | .persisted, .raises failure, db => some (some failure, db)
  | .persisted, .auto, db => some (none, db)
  | .aclose, _, db => some ((), { db with history := db.history.setDuty t none })
  | .commit, _, db => some ((), commitTx t db)
  | .rollback, _, db => some ((), rollbackTx t db)
  | _, _, _ => none

abbrev Proc (α : Type) := Prog Stmt Result α

abbrev call (q : Stmt) : Proc (Result q) := Prog.call q

end Jobs

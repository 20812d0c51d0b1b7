import AiSoc.Jobs.Store

namespace Jobs

open Permissions (Uuid Timestamp)
open PyJson (Json)
open Process

def contractVersion : String := "remediation-v2"

section Requests

variable (env : Env)

def hashedText (incidentId : Uuid) (incident : Incident) (evidenceIds : List Uuid) : String :=
  contractVersion ++ ":" ++ PyStr.uuidText incidentId ++ ":" ++ env.isoformat incident.updatedAt ++
    ":" ++ toString incident.riskScore ++ ":" ++ env.isoformat incident.lastSeen ++ ":" ++
    ",".intercalate (evidenceIds.map PyStr.uuidText)

def contextFor (incidentId : Uuid) (incident : Incident) (evidenceIds : List Uuid) : Context where
  incidentId := incidentId
  contextHash := env.sha256 (hashedText env incidentId incident evidenceIds)
  promptVersion := env.llmPromptVersion

def lockKey (context : Context) : String :=
  "investigation:" ++ PyStr.uuidText context.incidentId ++ ":" ++ context.contextHash ++ ":" ++
    context.promptVersion

def providers : List String := ["openai", "google", "google_ai_studio", "gemini", "mock"]

def disabledReason : Option String :=
  let providerName := env.lower env.llmProvider
  if !env.llmEnabled || providerName = "disabled" then some "AI investigation is disabled"
  else if providerName ∉ providers then
    some s!"Unsupported LLM provider: {env.llmProvider}"
  else if providerName ≠ "mock" ∧ (env.llmApiKey.getD "").isEmpty then
    some "LLM_API_KEY is required for AI investigations"
  else none

inductive Outcome where
  | investigation (incidentId : Uuid) (response : Job)
  | notFound
  | disabled (reason : String)
  | queueError (reason : String)
  | processed (ok : Bool)
  | waited

def newJob (id : Uuid) (context : Context) (now : Timestamp) : Job where
  id := id
  incidentId := context.incidentId
  status := "queued"
  contextSnapshot := .obj []
  result := none
  validationErrors := []
  providerResponseIds := []
  error := none
  errorClass := none
  inputTokens := 0
  outputTokens := 0
  attemptCount := 0
  nextRetryAt := none
  queuedAt := now
  startedAt := none
  completedAt := none
  updatedAt := now
  provider := env.llmProvider
  model := env.llmModel
  promptVersion := context.promptVersion
  contextHash := context.contextHash

def enqueue (incidentId : Uuid) (job : Job) : Proc Outcome := do
  match ← call (.rpush job.id) with
  | .ok _ => return .investigation incidentId job
  | .error error =>
      let now ← call .now
      call (.fail job ⟨s!"Unable to enqueue investigation: {error}", []⟩ now)
      call .commit
      return .queueError "Unable to enqueue investigation"

def requestFor (context : Context) : Proc Outcome := do
  call (.acquireContextLock (lockKey context))
  match ← call (.findForContext context) with
  | none =>
      let id ← call .uuid4
      let now ← call .now
      let job := newJob env id context now
      call (.create job)
      call .commit
      enqueue context.incidentId job
  | some job =>
      if job.status = "failed" then
        let now ← call .now
        call (.requeue job env.llmProvider env.llmModel now)
        call .commit
        enqueue context.incidentId (requeued job env.llmProvider env.llmModel now job)
      else
        call .commit
        return .investigation context.incidentId job

def requestInvestigation (incidentId : Uuid) : Proc Outcome := do
  match disabledReason env with
  | some reason => return .disabled reason
  | none =>
      match ← call (.getIncident incidentId) with
      | none => return .notFound
      | some incident =>
          let evidenceIds ← call (.evidenceIds incidentId)
          requestFor env (contextFor env incidentId incident evidenceIds)

end Requests

section Worker

-- InvestigationWorkflow.run, up to the flush that persistence_node makes
def workflow (job : Job) : Proc (Option Failure) := do
  match ← call (.build job.id job.incidentId) with
  | .error failure => return some failure
  | .ok contextSnapshot =>
      let checkpointAt ← call .now
      call (.checkpointContext job.id contextSnapshot checkpointAt)
      call .commit
      match ← call .analyse with
      | .error failure => return some failure
      | .ok completion =>
          let now ← call .now
          let loaded := checkpointed contextSnapshot checkpointAt job
          call (.complete loaded contextSnapshot completion now)
          call .persisted

def recordFailure (id : Uuid) (failure : Failure) : Proc Unit := do
  call .rollback
  match ← call (.get id) with
  | none => return ()
  | some job =>
      let now ← call .now
      call (.fail job failure now)
      call .commit

def processInvestigation (id : Uuid) : Proc Outcome := do
  let now ← call .now
  match ← call (.claim id now) with
  | none =>
      call .rollback
      return .processed false
  | some job =>
      call .commit
      match ← workflow job with
      | none =>
          call .commit
          call .aclose
          return .processed true
      | some failure =>
          recordFailure id failure
          call .aclose
          return .processed false

-- one turn of run_worker
def runWorker : Proc Outcome := do
  match ← call .blpop with
  | none => return .waited
  | some id => processInvestigation id

def redeliver (id : Uuid) : Proc Outcome := do
  call (.redeliver id)
  return .waited

end Worker

inductive Call where
  | request (incidentId : Uuid)
  | worker
  | redeliver (id : Uuid)

def body (env : Env) : Call → Proc Outcome
  | .request incidentId => requestInvestigation env incidentId
  | .worker => runWorker
  | .redeliver id => redeliver id

def machine (env : Env) : Machine where
  Db := Db
  Stmt := Stmt
  Result := Result
  Choice := Choice
  Call := Call
  Out := Outcome
  exec := exec env
  close := closeTx
  body := body env

def demoEnv : Env where
  lower := id
  sha256 _ := ""
  hashtextextended _ := 0
  isoformat _ := ""
  incidents id := if id = 7 then some ⟨0, 0, 0⟩ else none
  evidence _ := []
  llmEnabled := true
  llmProvider := "mock"
  llmApiKey := none
  llmModel := ""
  llmPromptVersion := ""

end Jobs

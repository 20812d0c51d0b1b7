import AiSoc.Investigation.Context
import AiSoc.Investigation.Gate
import AiSoc.Investigation.NetworkAssessment
import AiSoc.Investigation.Validation

namespace Investigation

open PyJson Response
open Permissions (Uuid Timestamp)

section Repository

structure InvestigationRow where
  id : Uuid
  incidentId : Uuid
  status : String
  contextSnapshot : Json
  result : Option Json
  validationErrors : List String
  providerResponseIds : List String
  error : Option String
  errorClass : Option String
  inputTokens : Nat
  outputTokens : Nat
  attemptCount : Nat
  nextRetryAt : Option Timestamp
  queuedAt : Timestamp
  startedAt : Option Timestamp
  completedAt : Option Timestamp
  updatedAt : Timestamp

def InvestigationRow.checkpointContext (row : InvestigationRow) (contextSnapshot : Json)
    (now : Timestamp) : InvestigationRow :=
  { row with contextSnapshot := contextSnapshot, updatedAt := now }

def InvestigationRow.complete (row : InvestigationRow) (contextSnapshot result : Json)
    (providerResponseIds : List String) (inputTokens outputTokens : Nat) (now : Timestamp) :
    InvestigationRow :=
  { row with
    status := "completed"
    contextSnapshot := contextSnapshot
    result := some result
    providerResponseIds := providerResponseIds
    inputTokens := inputTokens
    outputTokens := outputTokens
    validationErrors := []
    error := none
    errorClass := none
    nextRetryAt := none
    completedAt := some now
    updatedAt := now }

end Repository

section Environment

structure ProviderResult (α : Type) where
  output : α
  responseId : String
  inputTokens : Nat
  outputTokens : Nat

-- what a run is told by the database, the provider, Redis, the clock and the executor
structure Environment (σ : Type) where
  py : PyText
  maxChars : Int
  reads : ContextReads
  loaded : Option InvestigationRow
  loadedAt : Timestamp
  cancelled : Bool
  evidenceResponse : Except String (ProviderResult EvidenceAnalysis)
  riskResponse : Except String (ProviderResult RiskAnalysis)
  narrativeResponse : Except String (ProviderResult InvestigationNarrative)
  recommendationResponse : Except String (ProviderResult PlannedRecommendationSet)
  modelValidate : ModelValidate
  clock : Nat → Seconds
  redis : Redis
  executor : Executor σ
  world : σ
  blocked : σ → String → Bool
  activeByEmail : σ → String → Option Bool
  completing : Option InvestigationRow
  completedAt : Timestamp

inductive WorkflowError where
  | raised (message : String)
  | context (error : ContextError)
  | cancelled
  | invalid (errors : List String)

def WorkflowError.message : WorkflowError → String
  | .raised message => message
  | .context .incidentNotFound => "IncidentNotFoundError"
  | .context .contextTooLarge => "Safe incident context exceeds LLM_CONTEXT_MAX_CHARS"
  | .cancelled => "Investigation was cancelled by analyst"
  | .invalid errors => "; ".intercalate errors

abbrev Node := Except WorkflowError

def raising {α : Type} : Except String α → Node α
  | .ok a => .ok a
  | .error message => .error (.raised message)

def get {α : Type} (key : String) (value : Option α) : Node α :=
  raising (required key value)

theorem raising_ok_iff {α : Type} {x : Except String α} {a : α} :
    raising x = .ok a ↔ x = .ok a := by
  cases x with
  | error e => simp [raising]
  | ok b => simp [raising]

theorem get_ok_iff {α : Type} {key : String} {value : Option α} {a : α} :
    get key value = .ok a ↔ value = some a := by
  cases value with
  | none => simp [get, required, raising]
  | some b => simp [get, required, raising]

end Environment

section Ceiling

theorem unitRange_min {x y : PyFloat} (hx : UnitRange x) (hy : UnitRange y) :
    UnitRange (PyFloat.min x y) := by
  rcases PyFloat.min_cases x y with h | h
  · rw [h]
    exact hx
  · rw [h]
    exact hy

def confidenceCeiling : EvidenceQuality → Option {x : PyFloat // UnitRange x}
  | .reportOnly => some ⟨⟨false, 5, -1, PyFloat.normal_point_five⟩, by decide⟩
  | .analystSupplied => some ⟨⟨false, 65, -2, by decide⟩, by decide⟩
  | .corroboratedTelemetry => none

def EvidenceFinding.capped (finding : EvidenceFinding) (ceiling : {x : PyFloat // UnitRange x}) :
    EvidenceFinding :=
  { finding with
    confidence := PyFloat.min finding.confidence ceiling.1
    confidenceRange := unitRange_min finding.confidenceRange ceiling.2 }

def InvestigationNarrative.capped (narrative : InvestigationNarrative)
    (ceiling : {x : PyFloat // UnitRange x}) : InvestigationNarrative :=
  { narrative with
    confidence := PyFloat.min narrative.confidence ceiling.1
    confidenceRange := unitRange_min narrative.confidenceRange ceiling.2 }

def capFindings (quality : EvidenceQuality) (findings : List EvidenceFinding) :
    List EvidenceFinding :=
  (confidenceCeiling quality).elim findings fun ceiling => findings.map (·.capped ceiling)

def capNarrative (quality : EvidenceQuality) (narrative : InvestigationNarrative) :
    InvestigationNarrative :=
  (confidenceCeiling quality).elim narrative narrative.capped

theorem length_capFindings (quality : EvidenceQuality) (findings : List EvidenceFinding) :
    (capFindings quality findings).length = findings.length := by
  cases quality <;> simp [capFindings, confidenceCeiling]

end Ceiling

section Nodes

variable {σ : Type} (env : Environment σ)

def loadIncidentNode (state : InvestigationState) : Node (InvestigationState × InvestigationRow) :=
  match build env.py env.maxChars env.reads with
  | .error e => .error (.context e)
  | .ok context =>
      match env.loaded with
      | none => .error (.raised "Investigation disappeared while loading context")
      | some row =>
          .ok ({ state with context := some context },
            row.checkpointContext context.modelDump env.loadedAt)

def timelineNode (state : InvestigationState) : Node InvestigationState := do
  let context ← get "context" state.context
  return { state with
    timelineAnalysis := some [("entry_count", .int context.timeline.length),
      ("first_seen", .str context.incident.firstSeen),
      ("last_seen", .str context.incident.lastSeen),
      ("ordered_entries", .arr (context.timeline.map .obj))] }

def providerUpdate {α : Type} (state : InvestigationState) (response : ProviderResult α) :
    InvestigationState :=
  { state with
    providerResponseIds := state.providerResponseIds ++ [response.responseId]
    inputTokens := state.inputTokens + response.inputTokens
    outputTokens := state.outputTokens + response.outputTokens }

def mergedAnalysis (quality : EvidenceQuality) (network : NetworkAssessment)
    (output : EvidenceAnalysis) : EvidenceAnalysis where
  findings := capFindings quality ((network.findings ++ output.findings).take 20)
  gaps := (output.gaps ++ network.gaps).take 20
  findingsLength := by
    rw [length_capFindings]
    exact List.length_take_le _ _
  gapsLength := List.length_take_le _ _

def evidenceAnalysisNode (state : InvestigationState) : Node InvestigationState := do
  if env.cancelled then
    .error .cancelled
  else
    let context ← get "context" state.context
    let _ ← get "timeline_analysis" state.timelineAnalysis
    let response ← raising env.evidenceResponse
    let network ← raising (assessNetworkEvidence env.py context.incidentEvidence)
    let output := mergedAnalysis context.incident.evidenceQuality network response.output
    return { providerUpdate state response with evidenceAnalysis := some output }

def riskAnalysisNode (state : InvestigationState) : Node InvestigationState := do
  let _ ← get "context" state.context
  let _ ← get "evidence_analysis" state.evidenceAnalysis
  let response ← raising env.riskResponse
  return { providerUpdate state response with riskAnalysis := some response.output }

def mitreItem (technique : TechniqueContext) : MitreContextItem where
  techniqueId := technique.techniqueId
  name := technique.name
  tactics := technique.tactics
  relevance := "Mapped from one or more detection rules attached to this incident."

def mitreContextNode (state : InvestigationState) : Node InvestigationState := do
  let context ← get "context" state.context
  return { state with mitreContext := some (context.techniques.map mitreItem) }

def investigationNode (state : InvestigationState) : Node InvestigationState := do
  let context ← get "context" state.context
  let _ ← get "timeline_analysis" state.timelineAnalysis
  let _ ← get "evidence_analysis" state.evidenceAnalysis
  let _ ← get "risk_analysis" state.riskAnalysis
  let _ ← get "mitre_context" state.mitreContext
  let response ← raising env.narrativeResponse
  let narrative := capNarrative context.incident.evidenceQuality response.output
  return { providerUpdate state response with narrative := some narrative }

-- the plan of the response does not reach the set
def mergedRecommendations (network : NetworkAssessment) (output : PlannedRecommendationSet) :
    RecommendationSet where
  recommendations := (network.recommendations ++ output.recommendations).take 20
  actionPlan := []
  recommendationsLength := by
    have hmin := output.recommendationsLength.1
    simp only [Within, List.length_take, List.length_append]
    omega

def recommendationNode (state : InvestigationState) : Node InvestigationState := do
  let context ← get "context" state.context
  let _ ← get "narrative" state.narrative
  let _ ← get "risk_analysis" state.riskAnalysis
  let _ ← get "evidence_analysis" state.evidenceAnalysis
  let response ← raising env.recommendationResponse
  let network ← raising (assessNetworkEvidence env.py context.incidentEvidence)
  return { providerUpdate state response with
    recommendationSet := some (mergedRecommendations network response.output) }

def assembled (narrative : InvestigationNarrative) (analysis : EvidenceAnalysis)
    (risk : RiskAnalysis) (mitre : List MitreContextItem) (recommendations : RecommendationSet) :
    InvestigationResult where
  executiveSummary := narrative.executiveSummary
  attackStory := narrative.attackStory
  confidence := narrative.confidence
  findings := analysis.findings
  evidenceGaps := analysis.gaps
  riskAnalysis := risk
  mitreContext := mitre
  recommendations := recommendations.recommendations
  actionPlan := []
  confidenceRange := narrative.confidenceRange

def validationNode (state : InvestigationState) : Node InvestigationState := do
  let narrative ← get "narrative" state.narrative
  let analysis ← get "evidence_analysis" state.evidenceAnalysis
  let risk ← get "risk_analysis" state.riskAnalysis
  let mitre ← get "mitre_context" state.mitreContext
  let recommendations ← get "recommendation_set" state.recommendationSet
  let context ← get "context" state.context
  let result := assembled narrative analysis risk mitre recommendations
  match validateInvestigationResult result context.validEvidenceRefs with
  | .error errors => .error (.invalid errors)
  | .ok () => return { state with result := some result }

def verifyAction (world : σ) (item : ExecutedAction) : ExecutedAction :=
  if item.status = "executed" then
    let target := match item.target with
      | .str s => s
      | _ => ""
    let checkOk :=
      match item.actionType with
      | .str "block_ip" => env.blocked world ("ai_soc:denylist:ip:" ++ target)
      | .str "disable_user" => (env.activeByEmail world target).elim false (!·)
      | .str "revoke_sessions" => true
      | _ => false
    { item with details := item.details.set "verified" (.bool checkOk) }
  else item

-- policy_gate, execute_actions and verify_actions
def responseNodes (state : InvestigationState) : Node InvestigationState := do
  let decisions ← raising (policyGateNode env.py env.modelValidate env.clock env.redis state)
  let state := { state with policyDecisions := decisions }
  let execution := executeActionsNode env.modelValidate env.executor state env.world
  return { state with
    executedActions := execution.executed.map (verifyAction env execution.world) }

def persistenceNode (state : InvestigationState) : Node InvestigationRow := do
  match env.completing with
  | none => .error (.raised "Investigation disappeared during workflow execution")
  | some row =>
      let context ← get "context" state.context
      let result ← get "result" state.result
      return row.complete context.modelDump result.modelDump state.providerResponseIds
        state.inputTokens state.outputTokens env.completedAt

def analysisNodes (state : InvestigationState) : Node InvestigationState := do
  let state ← timelineNode state
  let state ← evidenceAnalysisNode env state
  let state ← riskAnalysisNode env state
  let state ← mitreContextNode state
  let state ← investigationNode env state
  let state ← recommendationNode env state
  validationNode state

-- the final state and the row it stores
def run (investigationId incidentId : Uuid) : Node (InvestigationState × InvestigationRow) := do
  let (state, _) ← loadIncidentNode env
    { investigationId := PyStr.uuidText investigationId
      incidentId := PyStr.uuidText incidentId }
  let state ← analysisNodes env state
  let state ← responseNodes env state
  let row ← persistenceNode env state
  return (state, row)

end Nodes

end Investigation

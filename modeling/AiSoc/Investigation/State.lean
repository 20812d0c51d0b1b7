import AiSoc.Investigation.Schema
import AiSoc.Response.Executor
import AiSoc.Response.Policy

namespace Investigation

open PyJson Response

-- an entry of policy_decisions
structure DecisionRecord where
  action : Obj
  allowed : Bool
  requiresHumanApproval : Bool
  reason : String

-- an entry of executed_actions
structure ExecutedAction where
  actionType : Json
  target : Json
  status : String
  details : Obj

structure InvestigationState where
  investigationId : String
  incidentId : String
  context : Option InvestigationContext := none
  timelineAnalysis : Option Obj := none
  evidenceAnalysis : Option EvidenceAnalysis := none
  riskAnalysis : Option RiskAnalysis := none
  mitreContext : Option (List MitreContextItem) := none
  narrative : Option InvestigationNarrative := none
  recommendationSet : Option RecommendationSet := none
  result : Option InvestigationResult := none
  policyDecisions : List DecisionRecord := []
  executedActions : List ExecutedAction := []
  providerResponseIds : List String := []
  inputTokens : Nat := 0
  outputTokens : Nat := 0

-- state[key], which raises KeyError
def required {α : Type} (key : String) : Option α → Except String α
  | some value => .ok value
  | none => .error ("KeyError: '" ++ key ++ "'")

end Investigation

import AiSoc.Investigation.Grounding

namespace Investigation

open PyJson Response

section Plan

variable {σ : Type} (env : Environment σ)

-- recommendation, validation, policy_gate and execute_actions
def plannedNodes (state : InvestigationState) : Node (List DecisionRecord × Execution σ) := do
  let state ← recommendationNode env state
  let state ← validationNode state
  let decisions ← raising (policyGateNode env.py env.modelValidate env.clock env.redis state)
  return (decisions, executeActionsNode env.modelValidate env.executor
    { state with policyDecisions := decisions } env.world)

def Decides (modelValidate : ModelValidate) (entry : Obj) (decision : DecisionRecord) : Prop :=
  decision.action = entry ∨
    ∃ action, modelValidate entry = .ok action ∧ decision.action = action.modelDump

inductive Reported (modelValidate : ModelValidate) (decision : DecisionRecord) :
    ExecutedAction → Prop where
  | executed (action : ProposedAction) (result : ExecutionResult) :
      modelValidate decision.action = .ok action → result.status = "executed" →
        Reported modelValidate decision (executedEntry action result)
  | failed (details : Obj) :
      Reported modelValidate decision (reportedEntry decision "failed" details)
  | pending (details : Obj) :
      Reported modelValidate decision (reportedEntry decision "pending_approval" details)

structure PlanDecided (modelValidate : ModelValidate) (plan : List Obj)
    (decisions : List DecisionRecord) (executed : List ExecutedAction) : Prop where
  decided : List.Forall₂ (Decides modelValidate) plan decisions
  reported : List.Forall₂ (Reported modelValidate) (decisions.filter (·.allowed)) executed

end Plan

section Gate

variable {σ : Type} {py : PyText} {modelValidate : ModelValidate} {executor : Executor σ}

theorem decides_decisionOf (context : PolicyContext) (entry : Obj) :
    Decides modelValidate entry (decisionOf py modelValidate context entry) := by
  unfold decisionOf
  cases hvalid : modelValidate entry with
  | error exc => exact .inl rfl
  | ok action => exact .inr ⟨action, hvalid, rfl⟩

theorem decides_map (context : PolicyContext) (plan : List Obj) :
    List.Forall₂ (Decides modelValidate) plan (plan.map (decisionOf py modelValidate context)) := by
  induction plan with
  | nil => exact .nil
  | cons entry plan ih => exact .cons (decides_decisionOf context entry) ih

def Executes (executor : Executor σ) : Prop :=
  ∀ actorLabel world action result world',
    executor actorLabel world action = (.ok result, world') → result.status = "executed"

theorem executeDecision_reported (hexecutor : Executes executor) (actorLabel : String)
    (decision : DecisionRecord) (world : σ) :
    List.Forall₂ (Reported modelValidate) ([decision].filter (·.allowed))
      (executeDecision modelValidate executor actorLabel decision world).executed := by
  simp only [executeDecision]
  cases hallowed : decision.allowed with
  | false => simp [hallowed]
  | true =>
      simp only [List.filter_cons, hallowed, List.filter_nil, if_true]
      cases decision.requiresHumanApproval with
      | true => exact .cons (.pending _) .nil
      | false =>
          simp only [Bool.not_false, and_self, if_true]
          cases hvalid : modelValidate decision.action with
          | error exc => exact .cons (.failed _) .nil
          | ok action =>
              cases hcall : executor actorLabel world action with
              | mk outcome world' =>
                  cases outcome with
                  | error exc =>
                      simp only [hcall]
                      exact .cons (.failed _) .nil
                  | ok result =>
                      simp only [hcall]
                      have hstatus := hexecutor actorLabel world action result world' hcall
                      exact .cons (.executed action result hvalid hstatus) .nil

theorem executeDecisions_reported (hexecutor : Executes executor) (actorLabel : String)
    (decisions : List DecisionRecord) (world : σ) :
    List.Forall₂ (Reported modelValidate) (decisions.filter (·.allowed))
      (executeDecisions modelValidate executor actorLabel decisions world).executed := by
  induction decisions generalizing world with
  | nil => exact .nil
  | cons decision decisions ih =>
      have hsplit : (decision :: decisions).filter (·.allowed) =
          [decision].filter (·.allowed) ++ decisions.filter (·.allowed) := by
        rw [← List.filter_append, List.singleton_append]
      rw [hsplit]
      exact List.rel_append (executeDecision_reported hexecutor actorLabel decision world) (ih _)

theorem gate_decides_plan (hexecutor : Executes executor) {clock : Nat → Seconds} {redis : Redis}
    {state : InvestigationState} {context : InvestigationContext}
    (hcontext : state.context = some context) (world : σ) :
    ∃ decisions, policyGateNode py modelValidate clock redis state = .ok decisions ∧
      PlanDecided modelValidate state.actionPlan decisions
        (executeActionsNode modelValidate executor { state with policyDecisions := decisions }
          world).executed :=
  ⟨_, policyGateNode_eq hcontext, decides_map _ _, executeDecisions_reported hexecutor _ _ world⟩

theorem executes_inApp (env : ExecutionEnv) : Executes (execute env) := by
  intro actorLabel world action result world' h
  unfold execute at h
  simp only at h
  split at h
  · rename_i outcome result' world'' hok
    cases h
    split at hok
    · unfold executeRevokeSessions at hok
      split at hok <;> cases hok
      rfl
    · unfold executeDisableUser at hok
      split at hok <;> cases hok
      rfl
    · cases hok
      rfl
    · cases hok
  · cases h

end Gate

section Lost

variable {σ : Type} {env : Environment σ} {state state' : InvestigationState}

theorem actionPlan_of_recommendationNode (h : recommendationNode env state = .ok state') :
    state'.actionPlan = [] := by
  simp only [recommendationNode, Except.bind_ok_iff, Except.pure_ok_iff] at h
  obtain ⟨_, _, _, _, _, _, _, _, _, _, _, _, rfl⟩ := h
  rfl

theorem response_of_recommendationNode (h : recommendationNode env state = .ok state') :
    ∃ response, env.recommendationResponse = .ok response := by
  simp only [recommendationNode, Except.bind_ok_iff, raising_ok_iff] at h
  obtain ⟨_, _, _, _, _, _, _, _, response, hresponse, _⟩ := h
  exact ⟨response, hresponse⟩

theorem recommendationSet_of_validationNode (h : validationNode state = .ok state') :
    state'.recommendationSet = state.recommendationSet := by
  simp only [validationNode, Except.bind_ok_iff] at h
  obtain ⟨_, _, _, _, _, _, _, _, _, _, _, _, h⟩ := h
  split at h
  · cases h
  · cases h
    rfl

theorem plannedNodes_ok {decisions : List DecisionRecord} {execution : Execution σ}
    (h : plannedNodes env state = .ok (decisions, execution)) :
    decisions = [] ∧ execution.executed = [] := by
  simp only [plannedNodes, Except.bind_ok_iff, Except.pure_ok_iff] at h
  obtain ⟨planned, hplanned, validated, hvalidated, gated, hgated, hpair⟩ := h
  have hplan : validated.actionPlan = [] := by
    unfold InvestigationState.actionPlan
    rw [recommendationSet_of_validationNode hvalidated]
    exact actionPlan_of_recommendationNode hplanned
  have hdecisions : gated = [] := by
    have hgate := raising_ok_iff.mp hgated
    simp only [policyGateNode, hplan, Except.bind_ok_iff, Except.pure_ok_iff] at hgate
    obtain ⟨_, _, rfl⟩ := hgate
    rfl
  subst hdecisions
  cases hpair
  exact ⟨rfl, rfl⟩

theorem plan_decided_iff {decisions : List DecisionRecord} {execution : Execution σ}
    (h : plannedNodes env state = .ok (decisions, execution)) :
    ∃ response, env.recommendationResponse = .ok response ∧
      (PlanDecided env.modelValidate response.output.actionPlan decisions execution.executed ↔
        response.output.actionPlan = []) := by
  obtain ⟨rfl, hexecuted⟩ := plannedNodes_ok h
  simp only [plannedNodes, Except.bind_ok_iff] at h
  obtain ⟨planned, hplanned, _⟩ := h
  obtain ⟨response, hresponse⟩ := response_of_recommendationNode hplanned
  refine ⟨response, hresponse, ?_⟩
  constructor
  · intro hdecided
    exact List.eq_nil_of_length_eq_zero hdecided.decided.length_eq
  · intro hplan
    rw [hplan, hexecuted]
    exact ⟨.nil, .nil⟩

end Lost

def lostPlanState : InvestigationState :=
  { phishingState with
    narrative := some toldStory
    evidenceAnalysis := some ⟨[], [], by decide, by decide⟩
    riskAnalysis := some ⟨70, .high, "Phishing", [], by decide, by decide, by decide⟩
    mitreContext := some []
    recommendationSet := none }

def proposing (plan : List Obj) : Environment World where
  py := asciiText
  maxChars := 30000
  reads := reportedAccess
  loaded := some reportedRow
  loadedAt := 1
  cancelled := false
  evidenceResponse := .error "not asked"
  riskResponse := .error "not asked"
  narrativeResponse := .error "not asked"
  recommendationResponse := .ok ⟨⟨[⟨"Contain", .high, "r", ["block"], ["event:e1"],
      some checkedPlan, by decide, by decide, by decide, by decide⟩],
    plan, by decide, by decide⟩, "r4", 10, 5⟩
  modelValidate := strictValidate
  clock _ := 0
  redis := ⟨true, none, {}, {}⟩
  executor := phishingExecutor
  world := ⟨[], [], [], []⟩
  blocked _ _ := false
  activeByEmail _ _ := none
  completing := some reportedRow
  completedAt := 2

theorem nodes_complete (plan : List Obj) : ∃ decisions execution,
    plannedNodes (proposing plan) lostPlanState = .ok (decisions, execution) := by
  have hok : (plannedNodes (proposing []) lostPlanState).toOption.isSome = true := by
    decide
  have hsame : plannedNodes (proposing plan) lostPlanState =
      plannedNodes (proposing []) lostPlanState := rfl
  rw [hsame]
  cases hrun : plannedNodes (proposing []) lostPlanState with
  | error e =>
      rw [hrun] at hok
      cases hok
  | ok p => exact ⟨p.1, p.2, rfl⟩

theorem empty_plan_decided : ∃ decisions execution response,
    plannedNodes (proposing []) lostPlanState = .ok (decisions, execution) ∧
      (proposing []).recommendationResponse = .ok response ∧
      (PlanDecided strictValidate response.output.actionPlan decisions execution.executed ↔
        response.output.actionPlan = []) := by
  obtain ⟨decisions, execution, hrun⟩ := nodes_complete []
  obtain ⟨response, hresponse, hiff⟩ := plan_decided_iff hrun
  exact ⟨decisions, execution, response, hrun, hresponse, hiff⟩

theorem phishing_plan_lost : ∃ decisions execution,
    plannedNodes (proposing phishingPlan) lostPlanState = .ok (decisions, execution) ∧
      decisions = [] ∧ phishingPlan.length = 4 ∧
      ¬ PlanDecided strictValidate phishingPlan decisions execution.executed := by
  obtain ⟨decisions, execution, hrun⟩ := nodes_complete phishingPlan
  obtain ⟨rfl, _⟩ := plannedNodes_ok hrun
  refine ⟨[], execution, hrun, rfl, rfl, fun hdecided => ?_⟩
  have hlength := hdecided.decided.length_eq
  exact absurd hlength (by decide)

end Investigation

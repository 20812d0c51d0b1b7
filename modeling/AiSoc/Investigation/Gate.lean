import AiSoc.Investigation.State

namespace Investigation

open PyJson Response

def InvestigationState.actionPlan (state : InvestigationState) : List Obj :=
  match state.recommendationSet with
  | some recommendationSet => recommendationSet.actionPlan
  | none => []

def nonEmpty : Option String → List String
  | some s => if s = "" then [] else [s]
  | none => []

def incidentEntities (context : InvestigationContext) : List String :=
  nonEmpty context.incident.primaryUsername ++ nonEmpty context.incident.primarySourceIp ++
    context.events.flatMap fun event => nonEmpty event.username ++ nonEmpty event.sourceIp

def policyContext (state : InvestigationState) (context : InvestigationContext) : PolicyContext where
  incidentId := state.incidentId
  incidentEntities := incidentEntities context
  validEvidenceRefs := context.validEvidenceRefs

def gateEntry (py : PyText) (modelValidate : ModelValidate) (context : PolicyContext)
    (now now' : Seconds) (entry : Obj) (engine : PolicyEngine) (redis : Redis) :
    DecisionRecord × PolicyEngine × Redis :=
  match modelValidate entry with
  | .error exc => (⟨entry, false, false, "Invalid action payload schema: " ++ exc⟩, engine, redis)
  | .ok action =>
      match engine.evaluate py redis now now' action context with
      | (.ok decision, engine, redis) =>
          (⟨action.modelDump, decision.allowed, decision.requiresHumanApproval, decision.reason⟩,
            engine, redis)
      | (.error exc, engine, redis) =>
          (⟨entry, false, false, "Invalid action payload schema: " ++ exc⟩, engine, redis)

-- clock gives the readings of time.time() in order
def gateEntries (py : PyText) (modelValidate : ModelValidate) (context : PolicyContext) :
    (Nat → Seconds) → List Obj → PolicyEngine → Redis → List DecisionRecord
  | _, [], _, _ => []
  | clock, entry :: plan, engine, redis =>
      let (decision, engine, redis) :=
        gateEntry py modelValidate context (clock 0) (clock 1) entry engine redis
      decision :: gateEntries py modelValidate context (fun n => clock (n + 2)) plan engine redis

def policyGateNode (py : PyText) (modelValidate : ModelValidate) (clock : Nat → Seconds)
    (redis : Redis) (state : InvestigationState) : Except String (List DecisionRecord) := do
  let context ← required "context" state.context
  return gateEntries py modelValidate (policyContext state context) clock state.actionPlan {} redis

-- what execute_actions_node sees of the executor: a label and an action, over any state
abbrev Executor (σ : Type) := String → σ → ProposedAction → Except String ExecutionResult × σ

-- calls are the actions given to the executor, results what it returned for them
structure Execution (σ : Type) where
  executed : List ExecutedAction
  calls : List ProposedAction
  results : List ExecutionResult
  world : σ

def executedEntry (action : ProposedAction) (result : ExecutionResult) : ExecutedAction :=
  ⟨.str action.actionType.value, .str action.target, result.status,
    [("undo_available", .bool result.undoAvailable), ("pre_state", .obj result.preState),
      ("post_state", .obj result.postState)]⟩

def reportedEntry (decision : DecisionRecord) (status : String) (details : Obj) : ExecutedAction :=
  ⟨(decision.action.get "action_type").getD .null, (decision.action.get "target").getD .null,
    status, details⟩

def executeDecision {σ : Type} (modelValidate : ModelValidate) (executor : Executor σ)
    (actorLabel : String) (decision : DecisionRecord) (world : σ) : Execution σ :=
  if decision.allowed ∧ !decision.requiresHumanApproval then
    match modelValidate decision.action with
    | .error exc => ⟨[reportedEntry decision "failed" [("error", .str exc)]], [], [], world⟩
    | .ok action =>
        match executor actorLabel world action with
        | (.ok result, world) => ⟨[executedEntry action result], [action], [result], world⟩
        | (.error exc, world) =>
            ⟨[reportedEntry decision "failed" [("error", .str exc)]], [action], [], world⟩
  else if decision.allowed ∧ decision.requiresHumanApproval then
    ⟨[reportedEntry decision "pending_approval" [("reason", .str decision.reason)]], [], [], world⟩
  else ⟨[], [], [], world⟩

def executeDecisions {σ : Type} (modelValidate : ModelValidate) (executor : Executor σ)
    (actorLabel : String) : List DecisionRecord → σ → Execution σ
  | [], world => ⟨[], [], [], world⟩
  | decision :: decisions, world =>
      let first := executeDecision modelValidate executor actorLabel decision world
      let rest := executeDecisions modelValidate executor actorLabel decisions first.world
      ⟨first.executed ++ rest.executed, first.calls ++ rest.calls,
        first.results ++ rest.results, rest.world⟩

def executeActionsNode {σ : Type} (modelValidate : ModelValidate) (executor : Executor σ)
    (state : InvestigationState) (world : σ) : Execution σ :=
  executeDecisions modelValidate executor ("investigation:" ++ state.investigationId)
    state.policyDecisions world

section Entities

theorem mem_nonEmpty {s : String} {o : Option String} (h : s ∈ nonEmpty o) : o = some s := by
  cases o with
  | none => cases h
  | some x =>
      simp only [nonEmpty] at h
      split at h
      · cases h
      · rw [List.mem_singleton.mp h]

def Entity (context : InvestigationContext) (s : String) : Prop :=
  context.incident.primaryUsername = some s ∨ context.incident.primarySourceIp = some s ∨
    ∃ event ∈ context.events, event.username = some s ∨ event.sourceIp = some s

theorem entity_of_mem {context : InvestigationContext} {s : String}
    (h : s ∈ incidentEntities context) : Entity context s := by
  simp only [incidentEntities, List.mem_append, List.mem_flatMap] at h
  rcases h with (h | h) | ⟨event, hevent, h | h⟩
  · exact .inl (mem_nonEmpty h)
  · exact .inr (.inl (mem_nonEmpty h))
  · exact .inr (.inr ⟨event, hevent, .inl (mem_nonEmpty h)⟩)
  · exact .inr (.inr ⟨event, hevent, .inr (mem_nonEmpty h)⟩)

end Entities

section Decisions

variable {py : PyText} {modelValidate : ModelValidate} {context : PolicyContext}

def checked (py : PyText) (context : PolicyContext) (action : ProposedAction) : PolicyDecision :=
  evaluateChecks py (false, "ok") action context

def decisionOf (py : PyText) (modelValidate : ModelValidate) (context : PolicyContext)
    (entry : Obj) : DecisionRecord :=
  match modelValidate entry with
  | .error exc => ⟨entry, false, false, "Invalid action payload schema: " ++ exc⟩
  | .ok action =>
      ⟨action.modelDump, (checked py context action).allowed,
        (checked py context action).requiresHumanApproval, (checked py context action).reason⟩

theorem gateEntry_fresh (now now' : Seconds) (entry : Obj) (redis : Redis) :
    gateEntry py modelValidate context now now' entry {} redis =
      (decisionOf py modelValidate context entry, {}, redis) := by
  simp only [gateEntry, decisionOf]
  cases modelValidate entry with
  | error exc => rfl
  | ok action => simp only [evaluate_fresh, checked]

theorem gateEntries_eq (clock : Nat → Seconds) (plan : List Obj) (redis : Redis) :
    gateEntries py modelValidate context clock plan {} redis =
      plan.map (decisionOf py modelValidate context) := by
  induction plan generalizing clock with
  | nil => rfl
  | cons entry plan ih =>
      simp only [gateEntries, gateEntry_fresh, List.map_cons]
      rw [ih]

theorem policyGateNode_eq {clock : Nat → Seconds} {redis : Redis} {state : InvestigationState}
    {c : InvestigationContext} (h : state.context = some c) :
    policyGateNode py modelValidate clock redis state =
      .ok (state.actionPlan.map (decisionOf py modelValidate (policyContext state c))) := by
  simp only [policyGateNode, h, required]
  exact congrArg Except.ok (gateEntries_eq clock state.actionPlan redis)

theorem decisionOf_invalid {entry : Obj} {exc : String} (h : modelValidate entry = .error exc) :
    (decisionOf py modelValidate context entry).allowed = false := by
  simp only [decisionOf, h]

theorem decisionOf_allowed {entry : Obj}
    (h : (decisionOf py modelValidate context entry).allowed = true) :
    ∃ action, modelValidate entry = .ok action ∧
      (decisionOf py modelValidate context entry).action = action.modelDump ∧
      Response.Grounded py action context ∧
      ((decisionOf py modelValidate context entry).requiresHumanApproval = false ↔
        AutoTier action context) := by
  cases hv : modelValidate entry with
  | error exc =>
      rw [decisionOf_invalid hv] at h
      cases h
  | ok action =>
      simp only [decisionOf, hv] at h ⊢
      have hg := (evaluateChecks_allowed_iff (false, "ok")).mp h
      refine ⟨action, rfl, rfl, hg.2, ?_⟩
      constructor
      · intro hauto
        exact ((evaluateChecks_auto_iff (false, "ok")).mp ⟨h, hauto⟩).2.2
      · intro hauto
        exact ((evaluateChecks_auto_iff (false, "ok")).mpr ⟨rfl, hg.2, hauto⟩).2

end Decisions

section Calls

variable {σ : Type} {py : PyText} {modelValidate : ModelValidate} {context : PolicyContext}
  {executor : Executor σ} {actorLabel : String}

theorem executeDecision_calls {decision : DecisionRecord} {world : σ} {action : ProposedAction}
    (h : action ∈ (executeDecision modelValidate executor actorLabel decision world).calls) :
    decision.allowed = true ∧ decision.requiresHumanApproval = false ∧
      modelValidate decision.action = .ok action := by
  simp only [executeDecision] at h
  split at h
  · rename_i hauto
    have hcall : modelValidate decision.action = .ok action := by
      cases hv : modelValidate decision.action with
      | error exc =>
          rw [hv] at h
          cases h
      | ok a =>
          rw [hv] at h
          dsimp only at h
          split at h <;> rw [List.mem_singleton.mp h]
    exact ⟨hauto.1, by simpa using hauto.2, hcall⟩
  · split at h <;> cases h

theorem executeDecisions_calls {decisions : List DecisionRecord} {world : σ}
    {action : ProposedAction}
    (h : action ∈ (executeDecisions modelValidate executor actorLabel decisions world).calls) :
    ∃ decision ∈ decisions, decision.allowed = true ∧ decision.requiresHumanApproval = false ∧
      modelValidate decision.action = .ok action := by
  induction decisions generalizing world with
  | nil => cases h
  | cons decision decisions ih =>
      simp only [executeDecisions, List.mem_append] at h
      rcases h with hfirst | hrest
      · exact ⟨decision, List.mem_cons_self, executeDecision_calls hfirst⟩
      · obtain ⟨d, hd, hcall⟩ := ih hrest
        exact ⟨d, List.mem_cons_of_mem _ hd, hcall⟩

def Reports (decision : DecisionRecord) (entry : ExecutedAction) : Prop :=
  decision.requiresHumanApproval = true →
    entry = reportedEntry decision "pending_approval" [("reason", .str decision.reason)]

theorem executeDecision_reports (decision : DecisionRecord) (world : σ) :
    List.Forall₂ Reports ([decision].filter (·.allowed))
      (executeDecision modelValidate executor actorLabel decision world).executed := by
  simp only [executeDecision]
  cases hallowed : decision.allowed with
  | false => simp [hallowed]
  | true =>
      cases happroval : decision.requiresHumanApproval with
      | true => simp [hallowed, Reports]
      | false =>
          have hreports : ∀ entry, Reports decision entry := by
            intro entry hr
            rw [happroval] at hr
            cases hr
          simp only [List.filter_cons, hallowed, List.filter_nil, Bool.not_false, and_self, if_true]
          split
          · exact .cons (hreports _) .nil
          · split
            · exact .cons (hreports _) .nil
            · exact .cons (hreports _) .nil

theorem executeDecisions_reports (decisions : List DecisionRecord) (world : σ) :
    List.Forall₂ Reports (decisions.filter (·.allowed))
      (executeDecisions modelValidate executor actorLabel decisions world).executed := by
  induction decisions generalizing world with
  | nil => exact .nil
  | cons decision decisions ih =>
      have hsplit : (decision :: decisions).filter (·.allowed) =
          [decision].filter (·.allowed) ++ decisions.filter (·.allowed) := by
        rw [← List.filter_append, List.singleton_append]
      rw [hsplit]
      exact List.rel_append (executeDecision_reports decision world) (ih _)

end Calls

section Soundness

variable {σ : Type} (py : PyText) (modelValidate : ModelValidate)

structure Cleared (context : InvestigationContext) (action : ProposedAction) : Prop where
  entity : ∃ s, Entity context s ∧ py.normalize action.target = py.normalize s
  notProtected : py.normalize action.target ∉ defaultProtectedEntities.map py.normalize
  network : ∀ ip, IpAddress.ipAddress (PyStr.strip action.target) = some ip →
    ∀ net ∈ defaultProtectedNetworks, net.contains ip = false
  evidence : ∀ ref ∈ action.evidenceRefs, ref ∈ context.validEvidenceRefs
  tier : action.tier = .tier0Auto ∨ action.tier = .tier1Low ∧ 4 / 5 ≤ action.confidence.toRat

structure Answers (entry : Obj) (decision : DecisionRecord) : Prop where
  invalid : ∀ exc, modelValidate entry = .error exc → decision.allowed = false
  valid : ∀ action, modelValidate entry = .ok action → decision.action = action.modelDump

def PendingTiers (decision : DecisionRecord) (entry : ExecutedAction) : Prop :=
  ∀ action, modelValidate decision.action = .ok action →
    action.tier = .tier2Medium ∨ action.tier = .tier3High → entry.status = "pending_approval"

variable {py modelValidate}

theorem answers_decisionOf (context : PolicyContext) (entry : Obj) :
    Answers modelValidate entry (decisionOf py modelValidate context entry) where
  invalid exc h := decisionOf_invalid h
  valid action h := by simp only [decisionOf, h]

theorem answers_map (context : PolicyContext) (plan : List Obj) :
    List.Forall₂ (Answers modelValidate) plan
      (plan.map (decisionOf py modelValidate context)) := by
  induction plan with
  | nil => exact .nil
  | cons entry plan ih => exact .cons (answers_decisionOf context entry) ih

theorem minAutoConfidence_toRat (state : InvestigationState) (context : InvestigationContext) :
    (policyContext state context).minAutoConfidence.toRat = 4 / 5 := by
  change PyFloat.toRat ⟨false, 8, -1, .inl (by decide)⟩ = 4 / 5
  decide +kernel

theorem cleared_of_auto {state : InvestigationState} {context : InvestigationContext}
    {action : ProposedAction} (hg : Response.Grounded py action (policyContext state context))
    (hauto : AutoTier action (policyContext state context)) : Cleared py context action where
  entity := by
    obtain ⟨s, hs, heq⟩ := List.mem_map.mp hg.entity
    exact ⟨s, entity_of_mem hs, heq.symm⟩
  notProtected := hg.notProtected
  network := hg.network
  evidence := hg.evidence
  tier := by
    rcases hauto with h0 | ⟨h1, hconf⟩
    · exact .inl h0
    · rw [minAutoConfidence_toRat] at hconf
      exact .inr ⟨h1, hconf⟩

theorem requires_of_tier {action : ProposedAction} {context : PolicyContext}
    (h : action.tier = .tier2Medium ∨ action.tier = .tier3High) : ¬ AutoTier action context := by
  rintro (h0 | ⟨h1, _⟩)
  · rw [h0] at h
    rcases h with h | h <;> cases h
  · rw [h1] at h
    rcases h with h | h <;> cases h

theorem pendingTiers_of_reports (hround : RoundTrip modelValidate) {context : PolicyContext}
    {plan : List Obj} {decision : DecisionRecord} {report : ExecutedAction}
    (hmem : decision ∈ (plan.map (decisionOf py modelValidate context)).filter (·.allowed))
    (hreports : Reports decision report) : PendingTiers modelValidate decision report := by
  intro action haction htier
  obtain ⟨hmap, hallowed⟩ := List.mem_filter.mp hmem
  obtain ⟨entry, _, rfl⟩ := List.mem_map.mp hmap
  obtain ⟨action', _, hdump, _, hauto⟩ := decisionOf_allowed hallowed
  rw [hdump, hround action'] at haction
  obtain rfl : action' = action := Except.ok.inj haction
  have hrequires : (decisionOf py modelValidate context entry).requiresHumanApproval = true := by
    by_contra hfalse
    exact requires_of_tier htier (hauto.mp (by simpa using hfalse))
  rw [hreports hrequires]
  rfl

theorem gate_sound (py : PyText) (hround : RoundTrip modelValidate) (executor : Executor σ)
    (clock : Nat → Seconds) (redis : Redis) (state : InvestigationState) (world : σ)
    (context : InvestigationContext) (hcontext : state.context = some context) :
    ∃ decisions, policyGateNode py modelValidate clock redis state = .ok decisions ∧
      List.Forall₂ (Answers modelValidate) state.actionPlan decisions ∧
      let run := executeActionsNode modelValidate executor
        { state with policyDecisions := decisions } world
      (∀ action ∈ run.calls,
        (∃ entry ∈ state.actionPlan, modelValidate entry = .ok action) ∧
          Cleared py context action) ∧
      List.Forall₂ (PendingTiers modelValidate) (decisions.filter (·.allowed)) run.executed := by
  refine ⟨_, policyGateNode_eq hcontext, answers_map _ _, ?_, ?_⟩
  · intro action hcall
    obtain ⟨decision, hmem, hallowed, happroval, haction⟩ := executeDecisions_calls hcall
    obtain ⟨entry, hentry, rfl⟩ := List.mem_map.mp hmem
    obtain ⟨action', hvalid, hdump, hg, hauto⟩ := decisionOf_allowed hallowed
    rw [hdump, hround action'] at haction
    obtain rfl : action' = action := Except.ok.inj haction
    exact ⟨⟨entry, hentry, hvalid⟩, cleared_of_auto hg (hauto.mp happroval)⟩
  · refine ((List.forall₂_and_left _ _).mpr
      ⟨fun _ hd => hd, executeDecisions_reports _ world⟩).imp ?_
    rintro decision report ⟨hmem, hreport⟩
    exact pendingTiers_of_reports hround hmem hreport

def phishingContext : InvestigationContext where
  incident := ⟨"7", "Phishing", "", "open", "high", 70, some "Mallory", none,
    "2026-01-01T00:00:00+00:00", "2026-01-01T01:00:00+00:00", .corroboratedTelemetry, none, false⟩
  alerts := []
  events := [⟨"event:e1", "e1", "2026-01-01T00:00:00+00:00", "vpn", "firewall", "login_failure",
    "authentication", none, some "mallory", some "203.0.113.7", none, none, none, none, none, none,
    none⟩]
  incidentEvidence := []
  timeline := []
  techniques := []
  validEvidenceRefs := ["event:e1", "incident:7"]

def planEntry (actionType target : String) : Obj :=
  [("action_type", .str actionType), ("target", .str target), ("reason", .str "credential theft"),
    ("evidence_refs", .arr [.str "event:e1"]), ("confidence", .float ⟨false, 9, -1, PyFloat.normal_point_nine⟩)]

def phishingPlan : List Obj :=
  [planEntry "block_ip" " 203.0.113.7", planEntry "disable_user" "MALLORY",
    planEntry "block_ip" "127.0.0.1", [("target", .str "mallory")]]

theorem contain_title : Within 1 255 "Contain".length := by decide

theorem contain_rationale : Within 1 2000 "r".length := by decide

theorem contain_actions : Within 1 20 ["block"].length := by decide

theorem no_refs : ([] : List String).length ≤ 20 := by decide

def phishingState : InvestigationState where
  investigationId := "9"
  incidentId := "7"
  context := some phishingContext
  recommendationSet := some
    { recommendations := [⟨"Contain", .high, "r", ["block"], [], none, contain_title, contain_rationale,
        contain_actions, no_refs⟩]
      actionPlan := phishingPlan
      recommendationsLength := by decide }

def phishingExecutor : Executor World :=
  execute ⟨fun id => toString id, "11", 0⟩

def phishingDecisions : List DecisionRecord :=
  phishingPlan.map (decisionOf asciiText strictValidate (policyContext phishingState phishingContext))

def phishingRun (decisions : List DecisionRecord) : Execution World :=
  executeActionsNode strictValidate phishingExecutor
    { phishingState with policyDecisions := decisions } ⟨[], [], [], []⟩

theorem gate_sound_phishing :
    ∃ decisions, policyGateNode asciiText strictValidate (fun _ => 0) ⟨true, none, {}, {}⟩
        phishingState = .ok decisions ∧
      decisions.map (·.allowed) = [true, true, false, false] ∧
      (phishingRun decisions).executed.map (·.status) = ["executed", "pending_approval"] ∧
      (phishingRun decisions).calls.map (·.target) = [" 203.0.113.7"] ∧
      ∀ action ∈ (phishingRun decisions).calls,
        (∃ entry ∈ phishingPlan, strictValidate entry = .ok action) ∧
          Cleared asciiText phishingContext action := by
  obtain ⟨decisions, hgate, _, hcalls, _⟩ := gate_sound asciiText strictValidate_roundTrip
    phishingExecutor (fun _ => 0) ⟨true, none, {}, {}⟩ phishingState ⟨[], [], [], []⟩
    phishingContext rfl
  have heq : decisions = phishingDecisions :=
    Except.ok.inj (hgate.symm.trans (policyGateNode_eq rfl))
  have hallowed : phishingDecisions.map (·.allowed) = [true, true, false, false] := by
    decide +kernel
  have hstatus : (phishingRun phishingDecisions).executed.map (·.status) =
      ["executed", "pending_approval"] := by
    decide +kernel
  have htargets : (phishingRun phishingDecisions).calls.map (·.target) = [" 203.0.113.7"] := by
    decide +kernel
  rw [← heq] at hallowed hstatus htargets
  exact ⟨decisions, hgate, hallowed, hstatus, htargets, hcalls⟩

end Soundness

end Investigation

import AiSoc.Library.IpAddress
import AiSoc.Library.PyText
import AiSoc.Response.Actions
import AiSoc.Response.CircuitBreaker

namespace Response

open IpAddress PyJson

def defaultProtectedEntities : List String :=
  ["admin", "root", "administrator", "soc_admin", "break_glass", "emergency_admin", "127.0.0.1",
    "::1", "localhost"]

def defaultProtectedNetworks : List Network :=
  [⟨127 * 2 ^ 24, 8, "127.0.0.0/8"⟩, ⟨169 * 2 ^ 24 + 254 * 2 ^ 16, 16, "169.254.0.0/16"⟩]

structure PolicyContext where
  incidentId : String
  incidentEntities : List String
  validEvidenceRefs : List String
  protectedEntities : List String := defaultProtectedEntities
  minAutoConfidence : PyFloat := ⟨false, 8, -1, PyFloat.normal_point_eight⟩

structure PolicyDecision where
  allowed : Bool
  requiresHumanApproval : Bool
  reason : String
  action : ProposedAction

def PolicyDecision.deny (action : ProposedAction) (reason : String) : PolicyDecision :=
  ⟨false, false, reason, action⟩

structure PolicyEngine where
  circuitBreaker : CircuitBreaker := {}

def protectedNetworkOf (target : String) : Option Network :=
  match ipAddress (PyStr.strip target) with
  | some ip => defaultProtectedNetworks.find? fun net => net.contains ip
  | none => none

def invalidRefs (action : ProposedAction) (context : PolicyContext) : List String :=
  PyStr.sortedSet (action.evidenceRefs.filter fun ref => !context.validEvidenceRefs.contains ref)

-- the risk tiers, once every other check has passed
def evaluateTier (action : ProposedAction) (context : PolicyContext) : PolicyDecision :=
  let tier := action.tier
  if tier.value ≥ ActionTier.tier3High.value then
    ⟨true, true, "Tier 3 high-impact action requires explicit human SOC analyst authorization",
      action⟩
  else if tier.value ≥ ActionTier.tier2Medium.value then
    ⟨true, true, "Tier 2 disruptive action requires human analyst approval", action⟩
  else if tier = .tier1Low then
    if action.confidence.toRat < context.minAutoConfidence.toRat then
      ⟨true, true, "Confidence " ++ action.confidence.fixed2 ++
        " is below auto-execution threshold " ++ context.minAutoConfidence.fixed2 ++
        "; deferred to human approval", action⟩
    else
      ⟨true, false, "Tier 1 action validated and approved for automated execution", action⟩
  else ⟨true, false, "Tier 0 non-disruptive action approved for automated execution", action⟩

-- tripped is the answer of the circuit breaker
def evaluateChecks (py : PyText) (tripped : Bool × String) (action : ProposedAction)
    (context : PolicyContext) : PolicyDecision :=
  let normalizedTarget := py.normalize action.target
  if tripped.1 then .deny action ("Circuit breaker tripped: " ++ tripped.2)
  else if normalizedTarget ∉ context.incidentEntities.map py.normalize then
    .deny action ("Ungrounded target '" ++ action.target ++ "' is not present in incident entities")
  else if normalizedTarget ∈ context.protectedEntities.map py.normalize then
    .deny action ("Target '" ++ action.target ++
      "' is a protected entity (admin/service account/infrastructure)")
  else
    match protectedNetworkOf action.target with
    | some net =>
        .deny action ("Target IP '" ++ action.target ++ "' is within protected network " ++ net.text)
    | none =>
        if invalidRefs action context ≠ [] then
          .deny action ("Ungrounded evidence references cited: " ++
            py.reprList (invalidRefs action context))
        else evaluateTier action context

def PolicyEngine.evaluate (py : PyText) (engine : PolicyEngine) (redis : Redis)
    (now now' : Seconds) (action : ProposedAction) (context : PolicyContext) :
    Except String PolicyDecision × PolicyEngine × Redis :=
  match engine.circuitBreaker.isTripped redis now now' with
  | (.ok tripped, cb, redis) => (.ok (evaluateChecks py tripped action context), ⟨cb⟩, redis)
  | (.error e, cb, redis) => (.error e, ⟨cb⟩, redis)

section Decisions

variable (py : PyText) (action : ProposedAction) (context : PolicyContext)

structure Grounded : Prop where
  entity : py.normalize action.target ∈ context.incidentEntities.map py.normalize
  notProtected : py.normalize action.target ∉ context.protectedEntities.map py.normalize
  network : ∀ ip, ipAddress (PyStr.strip action.target) = some ip →
    ∀ net ∈ defaultProtectedNetworks, net.contains ip = false
  evidence : ∀ ref ∈ action.evidenceRefs, ref ∈ context.validEvidenceRefs

def AutoTier : Prop :=
  action.tier = .tier0Auto ∨
    action.tier = .tier1Low ∧ context.minAutoConfidence.toRat ≤ action.confidence.toRat

variable {py action context}

theorem protectedNetworkOf_eq_none :
    protectedNetworkOf action.target = none ↔
      ∀ ip, ipAddress (PyStr.strip action.target) = some ip →
        ∀ net ∈ defaultProtectedNetworks, net.contains ip = false := by
  simp only [protectedNetworkOf]
  cases hip : ipAddress (PyStr.strip action.target) with
  | none => simp
  | some ip => simp [List.find?_eq_none]

theorem invalidRefs_eq_nil :
    invalidRefs action context = [] ↔
      ∀ ref ∈ action.evidenceRefs, ref ∈ context.validEvidenceRefs := by
  rw [List.eq_nil_iff_forall_not_mem]
  simp only [invalidRefs, PyStr.mem_sortedSet, List.mem_filter, List.contains_eq_mem,
    Bool.not_eq_true', decide_eq_false_iff_not, not_and, not_not]

theorem evaluateTier_allowed : (evaluateTier action context).allowed = true := by
  simp only [evaluateTier]
  split
  · rfl
  · split
    · rfl
    · split
      · split <;> rfl
      · rfl

theorem evaluateTier_requires :
    (evaluateTier action context).requiresHumanApproval = false ↔ AutoTier action context := by
  simp only [evaluateTier, AutoTier]
  cases action.tier with
  | tier0Auto => simp [ActionTier.value]
  | tier1Low =>
      by_cases hconf : action.confidence.toRat < context.minAutoConfidence.toRat
      · simp [ActionTier.value, hconf]
      · have hle : context.minAutoConfidence.toRat ≤ action.confidence.toRat := not_lt.mp hconf
        simp [ActionTier.value, hconf, hle]
  | tier2Medium => simp [ActionTier.value]
  | tier3High => simp [ActionTier.value]

theorem evaluateChecks_cases (tripped : Bool × String) :
    (tripped.1 = false ∧ Grounded py action context ∧
      evaluateChecks py tripped action context = evaluateTier action context) ∨
    ¬ (tripped.1 = false ∧ Grounded py action context) ∧
      (evaluateChecks py tripped action context).allowed = false ∧
      (evaluateChecks py tripped action context).requiresHumanApproval = false := by
  simp only [evaluateChecks]
  split
  · rename_i htripped
    refine .inr ⟨fun h => ?_, rfl, rfl⟩
    rw [h.1] at htripped
    cases htripped
  · split
    · rename_i hentity
      exact .inr ⟨fun h => hentity h.2.entity, rfl, rfl⟩
    · split
      · rename_i hprotected
        exact .inr ⟨fun h => h.2.notProtected hprotected, rfl, rfl⟩
      · split
        · rename_i net hnet
          refine .inr ⟨fun h => ?_, rfl, rfl⟩
          rw [protectedNetworkOf_eq_none.mpr h.2.network] at hnet
          cases hnet
        · split
          · rename_i hrefs
            exact .inr ⟨fun h => hrefs (invalidRefs_eq_nil.mpr h.2.evidence), rfl, rfl⟩
          · rename_i htripped hentity hprotected _ hnet hrefs
            refine .inl ⟨by simpa using htripped, ⟨by simpa using hentity, hprotected,
              protectedNetworkOf_eq_none.mp hnet, invalidRefs_eq_nil.mp (by simpa using hrefs)⟩, rfl⟩

theorem evaluateChecks_allowed_iff (tripped : Bool × String) :
    (evaluateChecks py tripped action context).allowed = true ↔
      tripped.1 = false ∧ Grounded py action context := by
  rcases evaluateChecks_cases tripped with ⟨ht, hg, he⟩ | ⟨hn, hd, _⟩
  · rw [he]
    exact ⟨fun _ => ⟨ht, hg⟩, fun _ => evaluateTier_allowed⟩
  · rw [hd]
    exact ⟨nofun, fun h => absurd h hn⟩

theorem evaluateChecks_auto_iff (tripped : Bool × String) :
    ((evaluateChecks py tripped action context).allowed = true ∧
      (evaluateChecks py tripped action context).requiresHumanApproval = false) ↔
      tripped.1 = false ∧ Grounded py action context ∧ AutoTier action context := by
  rcases evaluateChecks_cases tripped with ⟨ht, hg, he⟩ | ⟨hn, hd, _⟩
  · rw [he, evaluateTier_requires]
    exact ⟨fun h => ⟨ht, hg, h.2⟩, fun h => ⟨evaluateTier_allowed, h.2.2⟩⟩
  · rw [hd]
    exact ⟨fun h => absurd h.1 nofun, fun h => absurd ⟨h.1, h.2.1⟩ hn⟩

theorem evaluate_fresh (redis : Redis) (now now' : Seconds) :
    PolicyEngine.evaluate py {} redis now now' action context =
      (.ok (evaluateChecks py (false, "ok") action context), {}, redis) := by
  simp only [PolicyEngine.evaluate, isTripped_fresh]

end Decisions

end Response

import AiSoc.Investigation.Schema
import AiSoc.Library.Except
import AiSoc.Library.PyText

namespace Investigation

open PyJson

section Models

-- pydantic validates the fields of a model when it is constructed
def EvidenceFinding.create (title summary : String) (severity : AnalysisSeverity)
    (confidence : PyFloat) (evidenceRefs : List String) : Except String EvidenceFinding :=
  if h : Within 1 255 title.length ∧ Within 1 2000 summary.length ∧ UnitRange confidence ∧
      evidenceRefs.length ≤ 20 then
    .ok ⟨title, summary, severity, confidence, evidenceRefs, h.1, h.2.1, h.2.2.1, h.2.2.2⟩
  else .error "ValidationError: EvidenceFinding"

def RemediationPlan.create (verificationSteps changeSteps validationSteps rollbackSteps : List String)
    (impact : String) : Except String RemediationPlan :=
  if h : Steps verificationSteps ∧ Steps changeSteps ∧ Steps validationSteps ∧
      Steps rollbackSteps ∧ Within 1 1000 impact.length then
    .ok ⟨verificationSteps, changeSteps, validationSteps, rollbackSteps, impact, h.1, h.2.1,
      h.2.2.1, h.2.2.2.1, h.2.2.2.2⟩
  else .error "ValidationError: RemediationPlan"

def Recommendation.create (title : String) (priority : RecommendationPriority)
    (rationale : String) (actions evidenceRefs : List String)
    (remediationPlan : Option RemediationPlan) : Except String Recommendation :=
  if h : Within 1 255 title.length ∧ Within 1 2000 rationale.length ∧
      Within 1 20 actions.length ∧ evidenceRefs.length ≤ 20 then
    .ok ⟨title, priority, rationale, actions, evidenceRefs, remediationPlan, h.1, h.2.1, h.2.2.1,
      h.2.2.2⟩
  else .error "ValidationError: Recommendation"

theorem EvidenceFinding.create_ok {title summary : String} {severity : AnalysisSeverity}
    {confidence : PyFloat} {refs : List String} {finding : EvidenceFinding}
    (h : EvidenceFinding.create title summary severity confidence refs = .ok finding) :
    finding.title = title ∧ finding.summary = summary ∧ finding.severity = severity ∧
      finding.confidence = confidence ∧ finding.evidenceRefs = refs := by
  simp only [EvidenceFinding.create] at h
  split at h
  · cases h
    exact ⟨rfl, rfl, rfl, rfl, rfl⟩
  · cases h

theorem Recommendation.create_ok {title : String} {priority : RecommendationPriority}
    {rationale : String} {actions refs : List String} {plan : Option RemediationPlan}
    {recommendation : Recommendation}
    (h : Recommendation.create title priority rationale actions refs plan = .ok recommendation) :
    recommendation.title = title ∧ recommendation.priority = priority ∧
      recommendation.rationale = rationale ∧ recommendation.actions = actions ∧
      recommendation.evidenceRefs = refs ∧ recommendation.remediationPlan = plan := by
  simp only [Recommendation.create] at h
  split at h
  · cases h
    exact ⟨rfl, rfl, rfl, rfl, rfl, rfl⟩
  · cases h

end Models

section Fields

def SENSITIVE_PORTS : List Int :=
  [22, 445, 1433, 3306, 3389, 5432, 5900, 6379, 9200, 27017]

def typeName : Json → String
  | .null => "NoneType"
  | .bool _ => "bool"
  | .int _ => "int"
  | .float _ | .infinity _ | .nan => "float"
  | .str _ => "str"
  | .arr _ => "list"
  | .obj _ => "dict"

-- a set answers for hashable values only
def inNames (value : Option Json) (names : List String) : Except String Bool :=
  match value with
  | some (.arr _) => .error "TypeError: unhashable type: 'list'"
  | some (.obj _) => .error "TypeError: unhashable type: 'dict'"
  | some (.str s) => .ok (names.contains s)
  | _ => .ok false

-- the number and the text of a port; a bool is an int
def portOf : Option Json → Option (Int × String)
  | some (.int n) => some (n, String.ofList (intText n))
  | some (.bool b) => some (if b then (1, "True") else (0, "False"))
  | _ => none

def protocolOf (py : PyText) (network : Obj) : Except String String :=
  match (network.get "protocol").getD (.str "tcp") with
  | .str s => .ok (py.upper s)
  | value => .error ("AttributeError: '" ++ typeName value ++ "' object has no attribute 'upper'")

def isStr (value : Option Json) (s : String) : Bool :=
  match value with
  | some (.str t) => t = s
  | _ => false

def strOf (py : PyText) (value : Option Json) : String :=
  py.str (value.getD .null)

end Fields

section Texts

def findingTitle (internetToPrivate sensitive : Bool) : String :=
  if internetToPrivate && sensitive then "Reported internet access to a sensitive service"
  else if internetToPrivate then "Reported internet path into a private zone"
  else "Possible segmentation gap into a restricted zone"

def findingSummary (origin protocol port source destination : String) : String :=
  "Analyst-supplied " ++ origin ++ " evidence reports an allowed " ++ protocol ++ "/" ++ port ++
    " path from " ++ source ++ " to " ++ destination ++
    ". This is a reported exposure, not an independently verified vulnerability."

def recommendationTitle (protocol port : String) : String :=
  "Review and restrict reported " ++ protocol ++ "/" ++ port ++ " access"

def recommendationRationale : String :=
  "The supplied network observation suggests a path that may exceed intended access policy; verify before changing production rules."

def recommendationActions : List String :=
  ["Verify the observation against firewall, flow, and asset-owner records.",
    "If unauthorized, limit the rule to approved sources and required destinations under change control.",
    "Test legitimate traffic after the change and monitor for repeat attempts."]

def networkRemediation : Except String RemediationPlan :=
  RemediationPlan.create
    ["Confirm the affected assets and the reported path using firewall rules, flow logs, and the asset owner's intended access policy."]
    ["Save the current rule configuration and obtain the approved change window.",
      "Restrict the unauthorized path to the approved sources, destinations, and ports; retain a tested administrator access path."]
    ["Verify that an unauthorized source is blocked and required business traffic still succeeds.",
      "Review firewall and flow logs for continued access attempts after the change."]
    ["If required traffic fails, restore the approved previous configuration or a narrower temporary rule while investigating the failure.",
      "Verify administrator access and document any remaining exposure with the incident owner."]
    "Restricting this path can interrupt legitimate remote administration or application connections; confirm dependencies with the asset owner."

def noObservationGap : String :=
  "No structured network observation was supplied; network exposure and segmentation cannot be assessed."

def noRiskGap : String :=
  "No risky allowed path was identified in supplied observations; this does not prove the network is secure."

end Texts

section Assessment

structure NetworkAssessment where
  findings : List EvidenceFinding
  recommendations : List Recommendation
  gaps : List String

-- the network part of a network observation
def observation (item : EvidenceContext) : Option Obj :=
  if item.kind = "network_observation" then item.network else none

-- the port and whether the path is internet to private; none skips the item
def riskyPath (network : Obj) : Except String (Option (Int × String × Bool)) :=
  if !isStr (network.get "disposition") "allowed" then .ok none
  else
    match portOf (network.get "destination_port") with
    | none => .ok none
    | some (port, portText) => do
        let source := network.get "source_zone"
        let destination := network.get "destination_zone"
        let internetToPrivate ←
          if isStr source "internet" then inNames destination ["internal", "restricted"]
          else .ok false
        let fromInside ← inNames source ["dmz", "internal"]
        let lateralToRestricted :=
          fromInside && isStr destination "restricted" && SENSITIVE_PORTS.contains port
        return if internetToPrivate || lateralToRestricted
          then some (port, portText, internetToPrivate) else none

def assessPath (py : PyText) (item : EvidenceContext) (network : Obj) (port : Int)
    (portText : String) (internetToPrivate : Bool) :
    Except String (EvidenceFinding × Recommendation) := do
  let sensitive := SENSITIVE_PORTS.contains port
  let exposed := internetToPrivate && sensitive
  let protocol ← protocolOf py network
  let finding ← EvidenceFinding.create (findingTitle internetToPrivate sensitive)
    (findingSummary item.source protocol portText (strOf py (network.get "source_zone"))
      (strOf py (network.get "destination_zone")))
    (if exposed then .high else .medium)
    (if exposed then ⟨false, 6, -1, by decide⟩ else ⟨false, 5, -1, PyFloat.normal_point_five⟩) [item.ref]
  let plan ← networkRemediation
  let recommendation ← Recommendation.create (recommendationTitle protocol portText)
    (if exposed then .high else .medium) recommendationRationale recommendationActions [item.ref]
    (some plan)
  return (finding, recommendation)

def assessItem (py : PyText) (item : EvidenceContext) (network : Obj) :
    Except String (Option (EvidenceFinding × Recommendation)) := do
  match ← riskyPath network with
  | none => return none
  | some (port, portText, internetToPrivate) =>
      return some (← assessPath py item network port portText internetToPrivate)

def assessItems (py : PyText) :
    List EvidenceContext → Except String (List (EvidenceFinding × Recommendation))
  | [] => .ok []
  | item :: items =>
      match observation item with
      | none => assessItems py items
      | some network => do
          let assessed ← assessItem py item network
          let rest ← assessItems py items
          return assessed.toList ++ rest

def assessNetworkEvidence (py : PyText) (items : List EvidenceContext) :
    Except String NetworkAssessment := do
  let assessed ← assessItems py items
  let gaps :=
    if items.all fun item => (observation item).isNone then [noObservationGap]
    else if assessed = [] then [noRiskGap]
    else []
  return ⟨(assessed.map (·.1)).take 10, (assessed.map (·.2)).take 10, gaps⟩

end Assessment

section Citations

theorem assessPath_ok {py : PyText} {item : EvidenceContext} {network : Obj} {port : Int}
    {portText : String} {internetToPrivate : Bool} {p : EvidenceFinding × Recommendation}
    (h : assessPath py item network port portText internetToPrivate = .ok p) :
    p.1.evidenceRefs = [item.ref] ∧ p.2.evidenceRefs = [item.ref] := by
  simp only [assessPath, Except.bind_ok_iff, Except.pure_ok_iff] at h
  obtain ⟨_, _, finding, hfinding, plan, _, recommendation, hrecommendation, rfl⟩ := h
  exact ⟨(EvidenceFinding.create_ok hfinding).2.2.2.2,
    (Recommendation.create_ok hrecommendation).2.2.2.2.1⟩

theorem assessItem_ok {py : PyText} {item : EvidenceContext} {network : Obj}
    {assessed : Option (EvidenceFinding × Recommendation)}
    (h : assessItem py item network = .ok assessed) :
    ∀ p ∈ assessed, p.1.evidenceRefs = [item.ref] ∧ p.2.evidenceRefs = [item.ref] := by
  intro p hp
  simp only [assessItem, Except.bind_ok_iff] at h
  obtain ⟨path, _, h⟩ := h
  cases path with
  | none =>
      cases h
      cases hp
  | some path =>
      obtain ⟨port, portText, internetToPrivate⟩ := path
      simp only [Except.bind_ok_iff, Except.pure_ok_iff] at h
      obtain ⟨q, hq, rfl⟩ := h
      cases hp
      exact assessPath_ok hq

theorem assessItems_ok {py : PyText} {items : List EvidenceContext}
    {assessed : List (EvidenceFinding × Recommendation)} (h : assessItems py items = .ok assessed) :
    ∀ p ∈ assessed, ∃ item ∈ items,
      p.1.evidenceRefs = [item.ref] ∧ p.2.evidenceRefs = [item.ref] := by
  induction items generalizing assessed with
  | nil =>
      cases h
      simp
  | cons item items ih =>
      intro p hp
      simp only [assessItems] at h
      split at h
      · obtain ⟨item', hitem', href⟩ := ih h p hp
        exact ⟨item', List.mem_cons_of_mem _ hitem', href⟩
      · simp only [Except.bind_ok_iff, Except.pure_ok_iff] at h
        obtain ⟨first, hfirst, rest, hrest, rfl⟩ := h
        rcases List.mem_append.mp hp with hp | hp
        · have hp' : p ∈ first := by simpa using hp
          exact ⟨item, List.mem_cons_self, assessItem_ok hfirst p hp'⟩
        · obtain ⟨item', hitem', href⟩ := ih hrest p hp
          exact ⟨item', List.mem_cons_of_mem _ hitem', href⟩

theorem assessNetworkEvidence_cites {py : PyText} {items : List EvidenceContext}
    {assessment : NetworkAssessment} (h : assessNetworkEvidence py items = .ok assessment) :
    (∀ finding ∈ assessment.findings, ∃ item ∈ items, finding.evidenceRefs = [item.ref]) ∧
      ∀ recommendation ∈ assessment.recommendations,
        ∃ item ∈ items, recommendation.evidenceRefs = [item.ref] := by
  simp only [assessNetworkEvidence, Except.bind_ok_iff, Except.pure_ok_iff] at h
  obtain ⟨assessed, hassessed, rfl⟩ := h
  have hcites := assessItems_ok hassessed
  constructor
  · intro finding hfinding
    obtain ⟨p, hp, rfl⟩ := List.mem_map.mp (List.mem_of_mem_take hfinding)
    obtain ⟨item, hitem, href, _⟩ := hcites p hp
    exact ⟨item, hitem, href⟩
  · intro recommendation hrecommendation
    obtain ⟨p, hp, rfl⟩ := List.mem_map.mp (List.mem_of_mem_take hrecommendation)
    obtain ⟨item, hitem, _, href⟩ := hcites p hp
    exact ⟨item, hitem, href⟩

end Citations

end Investigation

import AiSoc.Library.Json

namespace Investigation

open PyJson

inductive EvidenceQuality where
  | corroboratedTelemetry
  | analystSupplied
  | reportOnly
  deriving DecidableEq, Repr

def EvidenceQuality.value : EvidenceQuality → String
  | .corroboratedTelemetry => "corroborated_telemetry"
  | .analystSupplied => "analyst_supplied"
  | .reportOnly => "report_only"

structure IncidentContext where
  id : String
  title : String
  description : String
  status : String
  severity : String
  riskScore : Int
  primaryUsername : Option String
  primarySourceIp : Option String
  firstSeen : String
  lastSeen : String
  evidenceQuality : EvidenceQuality
  detector : Option Json
  contextTruncated : Bool

structure AlertContext where
  ref : String
  id : String
  ruleId : String
  title : String
  description : String
  severity : String
  confidence : PyFloat
  sourceIp : Option String
  username : Option String
  firstSeen : String
  lastSeen : String
  evidence : Json

structure EventContext where
  ref : String
  eventId : String
  timestamp : String
  source : String
  sourceType : String
  eventType : String
  category : String
  severity : Option String
  username : Option String
  sourceIp : Option String
  destinationIp : Option String
  hostname : Option String
  action : Option String
  status : Option String
  resource : Option String
  bytesSent : Option Int
  bytesReceived : Option Int

structure EvidenceContext where
  ref : String
  kind : String
  source : String
  summary : String
  network : Option Obj
  observedAt : Option String
  provenance : String

structure TechniqueContext where
  techniqueId : String
  name : String
  tactics : List String
  description : String

structure InvestigationContext where
  incident : IncidentContext
  alerts : List AlertContext
  events : List EventContext
  incidentEvidence : List EvidenceContext
  timeline : List Obj
  techniques : List TechniqueContext
  validEvidenceRefs : List String

section Dump

def optStr (s : Option String) : Json :=
  s.elim .null .str

def optInt (n : Option Int) : Json :=
  n.elim .null .int

def strs (items : List String) : Json :=
  .arr (items.map .str)

def IncidentContext.toJson (incident : IncidentContext) : Json :=
  .obj ([("id", .str incident.id), ("title", .str incident.title),
    ("description", .str incident.description), ("status", .str incident.status),
    ("severity", .str incident.severity), ("risk_score", .int incident.riskScore),
    ("primary_username", optStr incident.primaryUsername),
    ("primary_source_ip", optStr incident.primarySourceIp),
    ("first_seen", .str incident.firstSeen), ("last_seen", .str incident.lastSeen),
    ("evidence_quality", .str incident.evidenceQuality.value)] ++
    incident.detector.elim [] (fun d => [("detector", d)]) ++
    if incident.contextTruncated then [("context_truncated", .bool true)] else [])

def AlertContext.toJson (alert : AlertContext) : Json :=
  .obj [("ref", .str alert.ref), ("id", .str alert.id), ("rule_id", .str alert.ruleId),
    ("title", .str alert.title), ("description", .str alert.description),
    ("severity", .str alert.severity), ("confidence", .float alert.confidence),
    ("source_ip", optStr alert.sourceIp), ("username", optStr alert.username),
    ("first_seen", .str alert.firstSeen), ("last_seen", .str alert.lastSeen),
    ("evidence", alert.evidence)]

def EventContext.toJson (event : EventContext) : Json :=
  .obj [("ref", .str event.ref), ("event_id", .str event.eventId),
    ("timestamp", .str event.timestamp), ("source", .str event.source),
    ("source_type", .str event.sourceType), ("event_type", .str event.eventType),
    ("category", .str event.category), ("severity", optStr event.severity),
    ("username", optStr event.username), ("source_ip", optStr event.sourceIp),
    ("destination_ip", optStr event.destinationIp), ("hostname", optStr event.hostname),
    ("action", optStr event.action), ("status", optStr event.status),
    ("resource", optStr event.resource), ("bytes_sent", optInt event.bytesSent),
    ("bytes_received", optInt event.bytesReceived)]

def EvidenceContext.toJson (item : EvidenceContext) : Json :=
  .obj [("ref", .str item.ref), ("kind", .str item.kind), ("source", .str item.source),
    ("summary", .str item.summary), ("network", item.network.elim .null .obj),
    ("observed_at", optStr item.observedAt), ("provenance", .str item.provenance)]

def TechniqueContext.toJson (technique : TechniqueContext) : Json :=
  .obj [("technique_id", .str technique.techniqueId), ("name", .str technique.name),
    ("tactics", strs technique.tactics), ("description", .str technique.description)]

-- model_dump(mode="json")
def InvestigationContext.modelDump (context : InvestigationContext) : Json :=
  .obj [("incident", context.incident.toJson),
    ("alerts", .arr (context.alerts.map AlertContext.toJson)),
    ("events", .arr (context.events.map EventContext.toJson)),
    ("incident_evidence", .arr (context.incidentEvidence.map EvidenceContext.toJson)),
    ("timeline", .arr (context.timeline.map .obj)),
    ("techniques", .arr (context.techniques.map TechniqueContext.toJson)),
    ("valid_evidence_refs", strs context.validEvidenceRefs)]

end Dump

section Output

inductive AnalysisSeverity where
  | low
  | medium
  | high
  | critical
  deriving DecidableEq, Repr

inductive RecommendationPriority where
  | low
  | medium
  | high
  | urgent
  deriving DecidableEq, Repr

def Within (lo hi n : Nat) : Prop :=
  lo ≤ n ∧ n ≤ hi

instance (lo hi n : Nat) : Decidable (Within lo hi n) :=
  inferInstanceAs (Decidable (lo ≤ n ∧ n ≤ hi))

def UnitRange (x : PyFloat) : Prop :=
  0 ≤ x.toRat ∧ x.toRat ≤ 1

instance (x : PyFloat) : Decidable (UnitRange x) :=
  inferInstanceAs (Decidable (0 ≤ x.toRat ∧ x.toRat ≤ 1))

structure EvidenceFinding where
  title : String
  summary : String
  severity : AnalysisSeverity
  confidence : PyFloat
  evidenceRefs : List String
  titleLength : Within 1 255 title.length
  summaryLength : Within 1 2000 summary.length
  confidenceRange : UnitRange confidence
  refsLength : evidenceRefs.length ≤ 20

structure EvidenceAnalysis where
  findings : List EvidenceFinding
  gaps : List String
  findingsLength : findings.length ≤ 20
  gapsLength : gaps.length ≤ 20

structure RiskAnalysis where
  score : Nat
  severity : AnalysisSeverity
  rationale : String
  factors : List String
  scoreRange : score ≤ 100
  rationaleLength : Within 1 3000 rationale.length
  factorsLength : factors.length ≤ 20

structure MitreContextItem where
  techniqueId : String
  name : String
  tactics : List String
  relevance : String

structure InvestigationNarrative where
  executiveSummary : String
  attackStory : String
  confidence : PyFloat
  summaryLength : Within 1 4000 executiveSummary.length
  storyLength : Within 1 6000 attackStory.length
  confidenceRange : UnitRange confidence

def Steps (steps : List String) : Prop :=
  Within 1 5 steps.length ∧ ∀ step ∈ steps, Within 1 600 step.length

instance (steps : List String) : Decidable (Steps steps) :=
  inferInstanceAs (Decidable (Within 1 5 steps.length ∧ ∀ step ∈ steps, Within 1 600 step.length))

structure RemediationPlan where
  verificationSteps : List String
  changeSteps : List String
  validationSteps : List String
  rollbackSteps : List String
  impact : String
  verification : Steps verificationSteps
  change : Steps changeSteps
  validation : Steps validationSteps
  rollback : Steps rollbackSteps
  impactLength : Within 1 1000 impact.length

structure Recommendation where
  title : String
  priority : RecommendationPriority
  rationale : String
  actions : List String
  evidenceRefs : List String
  remediationPlan : Option RemediationPlan
  titleLength : Within 1 255 title.length
  rationaleLength : Within 1 2000 rationale.length
  actionsLength : Within 1 20 actions.length
  refsLength : evidenceRefs.length ≤ 20

-- PlannedRecommendationSet; the plan entries are free-form dicts
structure PlannedRecommendationSet where
  recommendations : List Recommendation
  actionPlan : List Obj
  recommendationsLength : Within 1 5 recommendations.length
  planned : ∀ recommendation ∈ recommendations, recommendation.remediationPlan.isSome

structure RecommendationSet where
  recommendations : List Recommendation
  actionPlan : List Obj
  recommendationsLength : Within 1 20 recommendations.length

structure InvestigationResult where
  executiveSummary : String
  attackStory : String
  confidence : PyFloat
  findings : List EvidenceFinding
  evidenceGaps : List String
  riskAnalysis : RiskAnalysis
  mitreContext : List MitreContextItem
  recommendations : List Recommendation
  actionPlan : List Obj
  confidenceRange : UnitRange confidence

end Output

end Investigation

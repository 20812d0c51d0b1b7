import AiSoc.Investigation.Schema
import AiSoc.Library.PyStr

namespace Investigation

section Dump

open PyJson

def AnalysisSeverity.value : AnalysisSeverity → String
  | .low => "low"
  | .medium => "medium"
  | .high => "high"
  | .critical => "critical"

def RecommendationPriority.value : RecommendationPriority → String
  | .low => "low"
  | .medium => "medium"
  | .high => "high"
  | .urgent => "urgent"

def EvidenceFinding.toJson (finding : EvidenceFinding) : Json :=
  .obj [("title", .str finding.title), ("summary", .str finding.summary),
    ("severity", .str finding.severity.value), ("confidence", .float finding.confidence),
    ("evidence_refs", strs finding.evidenceRefs)]

def RiskAnalysis.toJson (risk : RiskAnalysis) : Json :=
  .obj [("score", .int risk.score), ("severity", .str risk.severity.value),
    ("rationale", .str risk.rationale), ("factors", strs risk.factors)]

def MitreContextItem.toJson (item : MitreContextItem) : Json :=
  .obj [("technique_id", .str item.techniqueId), ("name", .str item.name),
    ("tactics", strs item.tactics), ("relevance", .str item.relevance)]

def RemediationPlan.toJson (plan : RemediationPlan) : Json :=
  .obj [("verification_steps", strs plan.verificationSteps),
    ("change_steps", strs plan.changeSteps), ("validation_steps", strs plan.validationSteps),
    ("rollback_steps", strs plan.rollbackSteps), ("impact", .str plan.impact)]

def Recommendation.toJson (recommendation : Recommendation) : Json :=
  .obj [("title", .str recommendation.title), ("priority", .str recommendation.priority.value),
    ("rationale", .str recommendation.rationale), ("actions", strs recommendation.actions),
    ("evidence_refs", strs recommendation.evidenceRefs),
    ("remediation_plan", recommendation.remediationPlan.elim .null RemediationPlan.toJson)]

def InvestigationResult.modelDump (result : InvestigationResult) : Json :=
  .obj [("executive_summary", .str result.executiveSummary),
    ("attack_story", .str result.attackStory), ("confidence", .float result.confidence),
    ("findings", .arr (result.findings.map EvidenceFinding.toJson)),
    ("evidence_gaps", strs result.evidenceGaps), ("risk_analysis", result.riskAnalysis.toJson),
    ("mitre_context", .arr (result.mitreContext.map MitreContextItem.toJson)),
    ("recommendations", .arr (result.recommendations.map Recommendation.toJson)),
    ("action_plan", .arr (result.actionPlan.map .obj))]

end Dump

section Validation

def severityFromScore (score : Nat) : AnalysisSeverity :=
  if 85 ≤ score then .critical
  else if 65 ≤ score then .high
  else if 35 ≤ score then .medium
  else .low

def severityErrors (risk : RiskAnalysis) : List String :=
  let expected := severityFromScore risk.score
  if risk.severity = expected then []
  else ["Risk severity does not match the deterministic score bucket: expected " ++
    expected.value ++ "."]

def unknownRefs (references validReferences : List String) : List String :=
  PyStr.sortedSet (references.filter fun ref => !validReferences.contains ref)

def validateRefs (references validReferences : List String) (label : String) : List String :=
  let unknown := unknownRefs references validReferences
  if unknown = [] then []
  else ["Unknown evidence references in " ++ label ++ ": " ++ ", ".intercalate unknown]

-- the two errors of a finding or a recommendation; kind is the capitalised noun
def citationErrors (kind label title : String) (evidenceRefs validReferences : List String) :
    List String :=
  (if evidenceRefs = [] then [kind ++ " '" ++ title ++ "' has no evidence references."] else []) ++
    validateRefs evidenceRefs validReferences (label ++ " '" ++ title ++ "'")

def validationErrors (result : InvestigationResult) (validEvidenceRefs : List String) :
    List String :=
  severityErrors result.riskAnalysis ++
    result.findings.flatMap (fun finding =>
      citationErrors "Finding" "finding" finding.title finding.evidenceRefs validEvidenceRefs) ++
    result.recommendations.flatMap fun recommendation =>
      citationErrors "Recommendation" "recommendation" recommendation.title
        recommendation.evidenceRefs validEvidenceRefs

def validateInvestigationResult (result : InvestigationResult) (validEvidenceRefs : List String) :
    Except (List String) Unit :=
  let errors := validationErrors result validEvidenceRefs
  if errors = [] then .ok () else .error errors

end Validation

section Soundness

def Bucket : AnalysisSeverity → Nat → Prop
  | .low, score => score ≤ 34
  | .medium, score => 35 ≤ score ∧ score ≤ 64
  | .high, score => 65 ≤ score ∧ score ≤ 84
  | .critical, score => 85 ≤ score

def Cites (evidenceRefs validEvidenceRefs : List String) : Prop :=
  evidenceRefs ≠ [] ∧ evidenceRefs ⊆ validEvidenceRefs

structure Grounded (validEvidenceRefs : List String) (result : InvestigationResult) : Prop where
  findings : ∀ finding ∈ result.findings, Cites finding.evidenceRefs validEvidenceRefs
  recommendations : ∀ recommendation ∈ result.recommendations,
    Cites recommendation.evidenceRefs validEvidenceRefs
  severity : Bucket result.riskAnalysis.severity result.riskAnalysis.score

theorem bucket_iff (severity : AnalysisSeverity) (score : Nat) :
    Bucket severity score ↔ severity = severityFromScore score := by
  simp only [severityFromScore]
  split
  · cases severity <;> simp [Bucket] <;> omega
  · split
    · cases severity <;> simp [Bucket] <;> omega
    · split
      · cases severity <;> simp [Bucket] <;> omega
      · cases severity <;> simp [Bucket] <;> omega

theorem unknownRefs_eq_nil {references validReferences : List String} :
    unknownRefs references validReferences = [] ↔ references ⊆ validReferences := by
  constructor
  · intro h ref href
    by_contra hnot
    have hmem : ref ∈ unknownRefs references validReferences := by
      simp only [unknownRefs, PyStr.mem_sortedSet, List.mem_filter]
      exact ⟨href, by simpa using hnot⟩
    rw [h] at hmem
    cases hmem
  · intro h
    refine List.eq_nil_iff_forall_not_mem.mpr ?_
    intro ref href
    simp only [unknownRefs, PyStr.mem_sortedSet, List.mem_filter] at href
    obtain ⟨hmem, hnot⟩ := href
    have hvalid := h hmem
    simp [hvalid] at hnot

theorem citationErrors_eq_nil {kind label title : String} {refs validRefs : List String} :
    citationErrors kind label title refs validRefs = [] ↔ Cites refs validRefs := by
  have hrefs : validateRefs refs validRefs (label ++ " '" ++ title ++ "'") = [] ↔
      refs ⊆ validRefs := by
    rw [← unknownRefs_eq_nil, validateRefs]
    simp
  simp only [citationErrors, List.append_eq_nil_iff, hrefs, Cites]
  simp

theorem severityErrors_eq_nil {risk : RiskAnalysis} :
    severityErrors risk = [] ↔ Bucket risk.severity risk.score := by
  rw [bucket_iff, severityErrors]
  simp

theorem validate_ok_iff {result : InvestigationResult} {validEvidenceRefs : List String} :
    validateInvestigationResult result validEvidenceRefs = .ok () ↔
      Grounded validEvidenceRefs result := by
  have hiff : validationErrors result validEvidenceRefs = [] ↔
      Grounded validEvidenceRefs result := by
    simp only [validationErrors, List.append_eq_nil_iff, List.flatMap_eq_nil_iff,
      severityErrors_eq_nil, citationErrors_eq_nil]
    constructor
    · rintro ⟨⟨hseverity, hfindings⟩, hrecommendations⟩
      exact ⟨hfindings, hrecommendations, hseverity⟩
    · intro h
      exact ⟨⟨h.severity, h.findings⟩, h.recommendations⟩
  simp only [validateInvestigationResult]
  split
  · rename_i hnil
    simp [hiff.mp hnil]
  · rename_i hne
    have hnot : ¬ Grounded validEvidenceRefs result := fun h => hne (hiff.mpr h)
    simp [hnot]

end Soundness

end Investigation

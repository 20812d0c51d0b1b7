import AiSoc.Investigation.Bounded
import AiSoc.Investigation.Workflow

namespace Investigation

open PyJson PyStr Response
open Permissions (Uuid Timestamp)

section Ceilings

def UnderCeiling (quality : EvidenceQuality) (x : PyFloat) : Prop :=
  ∀ ceiling ∈ confidenceCeiling quality, x.toRat ≤ ceiling.1.toRat

theorem capFindings_under {quality : EvidenceQuality} {findings : List EvidenceFinding} :
    ∀ finding ∈ capFindings quality findings, UnderCeiling quality finding.confidence := by
  intro finding hfinding ceiling hceiling
  have hsome : confidenceCeiling quality = some ceiling := hceiling
  simp only [capFindings, hsome, Option.elim_some] at hfinding
  obtain ⟨original, _, rfl⟩ := List.mem_map.mp hfinding
  exact PyFloat.min_le_right _ _

theorem capNarrative_under (quality : EvidenceQuality) (narrative : InvestigationNarrative) :
    UnderCeiling quality (capNarrative quality narrative).confidence := by
  intro ceiling hceiling
  have hsome : confidenceCeiling quality = some ceiling := hceiling
  simp only [capNarrative, hsome, Option.elim_some]
  exact PyFloat.min_le_right _ _

def ceilingOf (attachedEvidence : List EvidenceRow) : Rat :=
  if attachedEvidence = [] then 1 / 2 else 13 / 20

theorem le_ceilingOf {alerts : List AlertRow} {attachedEvidence : List EvidenceRow} {x : PyFloat}
    (halerts : alerts = [])
    (h : UnderCeiling (evidenceQuality alerts (attachedEvidence.take 50)) x) :
    x.toRat ≤ ceilingOf attachedEvidence := by
  subst halerts
  cases attachedEvidence with
  | nil =>
      have hle := h _ rfl
      have hvalue : (⟨false, 5, -1, by decide⟩ : PyFloat).toRat = 1 / 2 := by decide +kernel
      rw [hvalue] at hle
      simpa [ceilingOf] using hle
  | cons item items =>
      have hle := h _ rfl
      have hvalue : (⟨false, 65, -2, by decide⟩ : PyFloat).toRat = 13 / 20 := by decide +kernel
      rw [hvalue] at hle
      simpa [ceilingOf] using hle

end Ceilings

section Nodes

variable {σ : Type} {env : Environment σ} {state state' : InvestigationState}
  {context : InvestigationContext}

theorem loadIncidentNode_ok {row : InvestigationRow}
    (h : loadIncidentNode env state = .ok (state', row)) :
    ∃ context, build env.py env.maxChars env.reads = .ok context ∧
      state'.context = some context := by
  simp only [loadIncidentNode] at h
  split at h
  · cases h
  · rename_i context hbuild
    split at h
    · cases h
    · cases h
      exact ⟨context, hbuild, rfl⟩

theorem timelineNode_ok (h : timelineNode state = .ok state') :
    state'.context = state.context := by
  simp only [timelineNode, Except.bind_ok_iff, Except.pure_ok_iff] at h
  obtain ⟨_, _, rfl⟩ := h
  rfl

theorem evidenceAnalysisNode_ok (hcontext : state.context = some context)
    (h : evidenceAnalysisNode env state = .ok state') :
    state'.context = some context ∧ ∃ analysis, state'.evidenceAnalysis = some analysis ∧
      ∀ finding ∈ analysis.findings,
        UnderCeiling context.incident.evidenceQuality finding.confidence := by
  simp only [evidenceAnalysisNode] at h
  split at h
  · cases h
  · simp only [Except.bind_ok_iff, Except.pure_ok_iff, get_ok_iff] at h
    obtain ⟨context', hcontext', _, _, response, _, network, _, rfl⟩ := h
    obtain rfl : context = context' := Option.some.inj (hcontext.symm.trans hcontext')
    exact ⟨hcontext, _, rfl, capFindings_under⟩

theorem riskAnalysisNode_ok (h : riskAnalysisNode env state = .ok state') :
    state'.context = state.context ∧ state'.evidenceAnalysis = state.evidenceAnalysis := by
  simp only [riskAnalysisNode, Except.bind_ok_iff, Except.pure_ok_iff] at h
  obtain ⟨_, _, _, _, _, _, rfl⟩ := h
  exact ⟨rfl, rfl⟩

theorem mitreContextNode_ok (h : mitreContextNode state = .ok state') :
    state'.context = state.context ∧ state'.evidenceAnalysis = state.evidenceAnalysis := by
  simp only [mitreContextNode, Except.bind_ok_iff, Except.pure_ok_iff] at h
  obtain ⟨_, _, rfl⟩ := h
  exact ⟨rfl, rfl⟩

theorem investigationNode_ok (hcontext : state.context = some context)
    (h : investigationNode env state = .ok state') :
    state'.context = some context ∧ state'.evidenceAnalysis = state.evidenceAnalysis ∧
      ∃ narrative, state'.narrative = some narrative ∧
        UnderCeiling context.incident.evidenceQuality narrative.confidence := by
  simp only [investigationNode, Except.bind_ok_iff, Except.pure_ok_iff, get_ok_iff] at h
  obtain ⟨context', hcontext', _, _, _, _, _, _, _, _, response, _, rfl⟩ := h
  obtain rfl : context = context' := Option.some.inj (hcontext.symm.trans hcontext')
  exact ⟨hcontext, rfl, _, rfl, capNarrative_under _ _⟩

theorem recommendationNode_ok (h : recommendationNode env state = .ok state') :
    state'.context = state.context ∧ state'.evidenceAnalysis = state.evidenceAnalysis ∧
      state'.narrative = state.narrative := by
  simp only [recommendationNode, Except.bind_ok_iff, Except.pure_ok_iff] at h
  obtain ⟨_, _, _, _, _, _, _, _, _, _, _, _, rfl⟩ := h
  exact ⟨rfl, rfl, rfl⟩

theorem validationNode_ok {narrative : InvestigationNarrative} {analysis : EvidenceAnalysis}
    (hcontext : state.context = some context) (hnarrative : state.narrative = some narrative)
    (hanalysis : state.evidenceAnalysis = some analysis) (h : validationNode state = .ok state') :
    state'.context = some context ∧ ∃ result, state'.result = some result ∧
      Grounded context.validEvidenceRefs result ∧ result.confidence = narrative.confidence ∧
      result.findings = analysis.findings := by
  simp only [validationNode, Except.bind_ok_iff, get_ok_iff] at h
  obtain ⟨narrative', hnarrative', analysis', hanalysis', risk, _, mitre, _, recommendations, _,
    context', hcontext', h⟩ := h
  obtain rfl : context = context' := Option.some.inj (hcontext.symm.trans hcontext')
  obtain rfl : narrative = narrative' := Option.some.inj (hnarrative.symm.trans hnarrative')
  obtain rfl : analysis = analysis' := Option.some.inj (hanalysis.symm.trans hanalysis')
  split at h
  · cases h
  · rename_i hvalid
    cases h
    exact ⟨hcontext, _, rfl, validate_ok_iff.mp hvalid, rfl, rfl⟩

theorem responseNodes_ok (h : responseNodes env state = .ok state') :
    state'.context = state.context ∧ state'.result = state.result := by
  simp only [responseNodes, Except.bind_ok_iff, Except.pure_ok_iff] at h
  obtain ⟨_, _, rfl⟩ := h
  exact ⟨rfl, rfl⟩

theorem persistenceNode_ok {result : InvestigationResult} {row : InvestigationRow}
    (hcontext : state.context = some context) (hresult : state.result = some result)
    (h : persistenceNode env state = .ok row) :
    row.contextSnapshot = context.modelDump ∧ row.result = some result.modelDump := by
  simp only [persistenceNode] at h
  split at h
  · cases h
  · simp only [Except.bind_ok_iff, Except.pure_ok_iff, get_ok_iff] at h
    obtain ⟨context', hcontext', result', hresult', rfl⟩ := h
    obtain rfl : context = context' := Option.some.inj (hcontext.symm.trans hcontext')
    obtain rfl : result = result' := Option.some.inj (hresult.symm.trans hresult')
    exact ⟨rfl, rfl⟩

end Nodes

section Run

variable {σ : Type} {env : Environment σ}

structure ConfidenceCapped (quality : EvidenceQuality) (result : InvestigationResult) : Prop where
  narrative : UnderCeiling quality result.confidence
  findings : ∀ finding ∈ result.findings, UnderCeiling quality finding.confidence

theorem analysisNodes_ok {state state' : InvestigationState} {context : InvestigationContext}
    (hcontext : state.context = some context) (h : analysisNodes env state = .ok state') :
    state'.context = some context ∧ ∃ result, state'.result = some result ∧
      Grounded context.validEvidenceRefs result ∧
      ConfidenceCapped context.incident.evidenceQuality result := by
  simp only [analysisNodes, Except.bind_ok_iff] at h
  obtain ⟨s1, h1, s2, h2, s3, h3, s4, h4, s5, h5, s6, h6, h7⟩ := h
  have hcontext1 : s1.context = some context := (timelineNode_ok h1).trans hcontext
  obtain ⟨hcontext2, analysis, hanalysis2, hfindings⟩ := evidenceAnalysisNode_ok hcontext1 h2
  obtain ⟨hcontext3, hanalysis3⟩ := riskAnalysisNode_ok h3
  obtain ⟨hcontext4, hanalysis4⟩ := mitreContextNode_ok h4
  have hctx4 : s4.context = some context := by rw [hcontext4, hcontext3, hcontext2]
  have hana4 : s4.evidenceAnalysis = some analysis := by rw [hanalysis4, hanalysis3, hanalysis2]
  obtain ⟨hcontext5, hanalysis5, narrative, hnarrative5, hconfidence⟩ :=
    investigationNode_ok hctx4 h5
  obtain ⟨hcontext6, hanalysis6, hnarrative6⟩ := recommendationNode_ok h6
  have hctx6 : s6.context = some context := by rw [hcontext6, hcontext5]
  have hana6 : s6.evidenceAnalysis = some analysis := by rw [hanalysis6, hanalysis5, hana4]
  have hnar6 : s6.narrative = some narrative := by rw [hnarrative6, hnarrative5]
  obtain ⟨hcontext7, result, hresult, hgrounded, hnar, hfind⟩ :=
    validationNode_ok hctx6 hnar6 hana6 h7
  refine ⟨hcontext7, result, hresult, hgrounded, ?_, ?_⟩
  · rw [hnar]
    exact hconfidence
  · rw [hfind]
    exact hfindings

structure Trustworthy (reads : ContextReads) (context : InvestigationContext)
    (result : InvestigationResult) : Prop where
  grounded : Grounded context.validEvidenceRefs result
  narrative : reads.alerts = [] → result.confidence.toRat ≤ ceilingOf reads.attachedEvidence
  findings : reads.alerts = [] → ∀ finding ∈ result.findings,
    finding.confidence.toRat ≤ ceilingOf reads.attachedEvidence

theorem run_stores_trustworthy (env : Environment σ) (investigationId incidentId : Uuid)
    {state : InvestigationState} {row : InvestigationRow}
    (h : run env investigationId incidentId = .ok (state, row)) :
    ∃ context result, build env.py env.maxChars env.reads = .ok context ∧
      state.context = some context ∧ state.result = some result ∧
      row.contextSnapshot = context.modelDump ∧ row.result = some result.modelDump ∧
      Trustworthy env.reads context result := by
  simp only [run, Except.bind_ok_iff] at h
  obtain ⟨⟨loaded, checkpoint⟩, hload, analysed, hanalysed, responded, hresponded, row', hrow, hpair⟩ :=
    h
  cases hpair
  obtain ⟨context, hbuild, hcontext⟩ := loadIncidentNode_ok hload
  obtain ⟨hcontext', result, hresult, hgrounded, hcapped⟩ := analysisNodes_ok hcontext hanalysed
  obtain ⟨hsameContext, hsameResult⟩ := responseNodes_ok hresponded
  have hfinalContext := hsameContext.trans hcontext'
  have hfinalResult := hsameResult.trans hresult
  obtain ⟨hsnapshot, hstored⟩ := persistenceNode_ok hfinalContext hfinalResult hrow
  obtain ⟨_, _, _, _, _, hquality⟩ := build_ok hbuild
  rw [hquality] at hcapped
  refine ⟨context, result, hbuild, hfinalContext, hfinalResult, hsnapshot, hstored, hgrounded,
    ?_, ?_⟩
  · intro halerts
    exact le_ceilingOf halerts hcapped.narrative
  · intro halerts finding hfinding
    exact le_ceilingOf halerts (hcapped.findings finding hfinding)

def reportedAccess : ContextReads where
  incident := some ⟨2, "Unexpected remote access", "An operator reported unusual access.", "open",
    "high", 70, none, none, 0, 0, []⟩
  alerts := []
  events := []
  techniques := []
  attachedEvidence := [⟨5, "analyst_observation", "operator", "Allowed inbound session", none, none⟩]
  classification := none

def reportedFinding : EvidenceFinding :=
  ⟨"Exposed service", "The report names a restricted host.", .high, ⟨false, 99, -2, by decide⟩,
    ["incident:" ++ uuidText 2], by decide, by decide, by decide, by decide⟩

def reportedRow : InvestigationRow :=
  ⟨1, 2, "running", .obj [], none, [], [], none, none, 0, 0, 1, none, 0, some 0, none, 0⟩

theorem risk_score : 70 ≤ 100 := by decide

theorem narrative_digits : 95 % 10 ≠ 0 ∨ (95 = 0 ∧ (-2 : Int) = 0) := by decide

def toldStory : InvestigationNarrative :=
  ⟨"Summary", "Story", ⟨false, 95, -2, narrative_digits⟩, by decide, by decide, by decide⟩

def checkedPlan : RemediationPlan :=
  ⟨["Check"], ["Change"], ["Test"], ["Restore"], "Downtime", by decide, by decide, by decide,
    by decide, by decide⟩

def reportedRun : Environment Unit where
  py := asciiText
  maxChars := 30000
  reads := reportedAccess
  loaded := some reportedRow
  loadedAt := 1
  cancelled := false
  evidenceResponse := .ok ⟨⟨[reportedFinding], [], by decide, no_refs⟩, "r1", 10, 5⟩
  riskResponse := .ok ⟨⟨70, .high, "Remote access", [], risk_score, by decide, no_refs⟩, "r2", 10, 5⟩
  narrativeResponse := .ok ⟨toldStory, "r3", 10, 5⟩
  recommendationResponse := .ok ⟨⟨[⟨"Restrict", .high, "Exposure", ["Verify"],
      ["incident:" ++ uuidText 2],
      some checkedPlan, by decide, by decide, by decide, by decide⟩],
    [], by decide, by decide⟩, "r4", 10, 5⟩
  modelValidate := strictValidate
  clock _ := 0
  redis := ⟨true, none, {}, {}⟩
  executor _ world _ := (.error "no executor", world)
  world := ()
  blocked _ _ := false
  activeByEmail _ _ := none
  completing := some reportedRow
  completedAt := 2

theorem reportedRun_stores :
    ∃ state row context result, run reportedRun 1 2 = .ok (state, row) ∧ row.status = "completed" ∧
      row.contextSnapshot = context.modelDump ∧ row.result = some result.modelDump ∧
      result.findings.length = 1 ∧ Trustworthy reportedAccess context result := by
  have hok : (run reportedRun 1 2).toOption.any (fun p => p.2.status = "completed" ∧
      p.1.result.any fun result => result.findings.length = 1) = true := by
    decide +kernel
  cases hrun : run reportedRun 1 2 with
  | error e =>
      rw [hrun] at hok
      cases hok
  | ok p =>
      obtain ⟨state, row⟩ := p
      obtain ⟨context, result, _, _, hresult, hsnapshot, hstored, htrust⟩ :=
        run_stores_trustworthy reportedRun 1 2 hrun
      have hseen : row.status = "completed" ∧ result.findings.length = 1 := by
        simpa [hrun, Except.toOption, hresult] using hok
      exact ⟨state, row, context, result, rfl, hseen.1, hsnapshot, hstored, hseen.2, htrust⟩

end Run

end Investigation

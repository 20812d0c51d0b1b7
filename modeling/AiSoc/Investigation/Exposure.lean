import AiSoc.Investigation.Grounding
import AiSoc.Investigation.Latest
import Mathlib.Data.Set.List

namespace Investigation

open PyJson PyStr

section Reported

-- an evidence item as the builder produces it
structure ReportedItem where
  item : EvidenceContext
  network : Option NetworkObservation
  dumped : item.network = network.map NetworkObservation.modelDump
  sourceLength : item.source.length ≤ 160
  portRange : ∀ observation ∈ network,
    1 ≤ observation.destinationPort ∧ observation.destinationPort ≤ 65535

def Risky (observation : NetworkObservation) : Prop :=
  observation.sourceZone = "internet" ∧
      observation.destinationZone ∈ ["internal", "restricted"] ∨
    observation.sourceZone ∈ ["dmz", "internal"] ∧ observation.destinationZone = "restricted" ∧
      observation.destinationPort ∈ SENSITIVE_PORTS

instance (observation : NetworkObservation) : Decidable (Risky observation) :=
  inferInstanceAs (Decidable (observation.sourceZone = "internet" ∧
      observation.destinationZone ∈ ["internal", "restricted"] ∨
    observation.sourceZone ∈ ["dmz", "internal"] ∧ observation.destinationZone = "restricted" ∧
      observation.destinationPort ∈ SENSITIVE_PORTS))

def exposes (reported : ReportedItem) : Bool :=
  reported.item.kind = "network_observation" ∧
    reported.network.any fun observation =>
      observation.disposition = "allowed" ∧ Risky observation

def UpperProtocols (py : PyText) : Prop :=
  py.upper "tcp" = "TCP" ∧ py.upper "udp" = "UDP"

end Reported

section Lengths

theorem length_natText_le {n width : Nat} (h : n < 10 ^ (width + 1)) :
    (natText n).length ≤ width + 1 := by
  rw [natText]
  split
  · exact Nat.succ_le_succ (Nat.zero_le _)
  · rw [List.length_map, List.length_reverse, Nat.digits_length_le_iff (by decide)]
    exact h

theorem length_portText {port : Int} (h : 1 ≤ port ∧ port ≤ 65535) :
    (String.ofList (intText port)).length ≤ 5 := by
  obtain ⟨n, rfl⟩ := Int.eq_ofNat_of_zero_le (by omega : 0 ≤ port)
  have hn : n ≤ 65535 := Int.ofNat_le.mp h.2
  have hlength : (natText n).length ≤ 4 + 1 :=
    length_natText_le (Nat.lt_of_le_of_lt hn (by decide))
  rw [String.length_ofList]
  exact hlength

theorem length_zone {zone : String} (h : zone ∈ zones) : zone.length ≤ 10 := by
  have hall : ∀ zone ∈ zones, zone.length ≤ 10 := by decide
  exact hall zone h

theorem length_append₅ (a b c d e : String) :
    (a ++ b ++ c ++ d ++ e).length = a.length + b.length + c.length + d.length + e.length := by
  simp only [String.length_append]

theorem findingSummary_length {origin protocol port source destination : String}
    (horigin : origin.length ≤ 160) (hprotocol : protocol.length ≤ 3) (hport : port.length ≤ 5)
    (hsource : source.length ≤ 10) (hdestination : destination.length ≤ 10) :
    Within 1 2000 (findingSummary origin protocol port source destination).length := by
  have hstart : ("Analyst-supplied " : String).length = 17 := by decide
  have hpath : (" evidence reports an allowed " : String).length = 29 := by decide
  have hslash : ("/" : String).length = 1 := by decide
  have hfrom : (" path from " : String).length = 11 := by decide
  have hto : (" to " : String).length = 4 := by decide
  have hend : (". This is a reported exposure, not an independently verified vulnerability." :
      String).length = 75 := by decide
  have hsum : (findingSummary origin protocol port source destination).length =
      17 + origin.length + 29 + protocol.length + 1 + port.length + 11 + source.length + 4 +
        destination.length + 75 := by
    unfold findingSummary
    rw [length_append₅, length_append₅, String.length_append, String.length_append, hstart, hpath,
      hslash, hfrom, hto, hend]
  clear hstart hpath hslash hfrom hto hend
  unfold Within
  omega

theorem findingTitle_length (internetToPrivate sensitive : Bool) :
    Within 1 255 (findingTitle internetToPrivate sensitive).length := by
  cases internetToPrivate <;> cases sensitive <;> decide

theorem recommendationTitle_length {protocol port : String} (hprotocol : protocol.length ≤ 3)
    (hport : port.length ≤ 5) : Within 1 255 (recommendationTitle protocol port).length := by
  have hstart : ("Review and restrict reported " : String).length = 29 := by decide
  have hslash : ("/" : String).length = 1 := by decide
  have hend : (" access" : String).length = 7 := by decide
  have hsum : (recommendationTitle protocol port).length =
      29 + protocol.length + 1 + port.length + 7 := by
    unfold recommendationTitle
    rw [length_append₅, hstart, hslash, hend]
  clear hstart hslash hend
  unfold Within
  omega

theorem findingConfidence (exposed : Bool) : UnitRange
    (if exposed then ⟨false, 6, -1, by decide⟩ else ⟨false, 5, -1, by decide⟩) := by
  cases exposed <;> decide

theorem EvidenceFinding.create_valid {title summary : String} (severity : AnalysisSeverity)
    {confidence : PyFloat} {refs : List String} (htitle : Within 1 255 title.length)
    (hsummary : Within 1 2000 summary.length) (hconfidence : UnitRange confidence)
    (hrefs : refs.length ≤ 20) :
    ∃ finding, EvidenceFinding.create title summary severity confidence refs = .ok finding :=
  ⟨_, dif_pos ⟨htitle, hsummary, hconfidence, hrefs⟩⟩

theorem Recommendation.create_valid {title rationale : String} {actions refs : List String}
    (priority : RecommendationPriority) (plan : Option RemediationPlan)
    (htitle : Within 1 255 title.length) (hrationale : Within 1 2000 rationale.length)
    (hactions : Within 1 20 actions.length) (hrefs : refs.length ≤ 20) :
    ∃ recommendation,
      Recommendation.create title priority rationale actions refs plan = .ok recommendation :=
  ⟨_, dif_pos ⟨htitle, hrationale, hactions, hrefs⟩⟩

theorem length_le_utf8ByteSize (s : String) : s.length ≤ s.utf8ByteSize := by
  induction s using String.push_induction with
  | empty => exact Nat.le_refl 0
  | push s c ih =>
      rw [String.length_push, String.utf8ByteSize_push]
      have hpos := c.utf8Size_pos
      omega

theorem within_of_bytes {n : Nat} {s : String} (h : 0 < s.utf8ByteSize ∧ s.utf8ByteSize ≤ n) :
    Within 1 n s.length := by
  refine ⟨Nat.pos_of_ne_zero fun hzero => ?_, (length_le_utf8ByteSize s).trans h.2⟩
  rw [String.length_eq_zero_iff.mp hzero] at h
  exact absurd h.1 (Nat.lt_irrefl 0)

theorem steps_of_bytes {steps : List String} (hcount : Within 1 5 steps.length)
    (hbytes : ∀ step ∈ steps, 0 < step.utf8ByteSize ∧ step.utf8ByteSize ≤ 600) : Steps steps :=
  ⟨hcount, fun step hstep => within_of_bytes (hbytes step hstep)⟩

theorem RemediationPlan.create_valid {verification change validation rollback : List String}
    {impact : String} (hverification : Steps verification) (hchange : Steps change)
    (hvalidation : Steps validation) (hrollback : Steps rollback)
    (himpact : Within 1 1000 impact.length) :
    ∃ plan, RemediationPlan.create verification change validation rollback impact = .ok plan :=
  ⟨_, dif_pos ⟨hverification, hchange, hvalidation, hrollback, himpact⟩⟩

theorem networkRemediation_ok : ∃ plan, networkRemediation = .ok plan := by
  unfold networkRemediation
  refine RemediationPlan.create_valid ?_ ?_ ?_ ?_ ?_
  · exact steps_of_bytes (by decide) (by decide +kernel)
  · exact steps_of_bytes (by decide) (by decide +kernel)
  · exact steps_of_bytes (by decide) (by decide)
  · exact steps_of_bytes (by decide) (by decide +kernel)
  · exact within_of_bytes (by decide +kernel)

end Lengths

section Items

variable {py : PyText}

theorem isStr_str (zone name : String) : isStr (some (.str zone)) name = decide (zone = name) := rfl

theorem modelDump_get (observation : NetworkObservation) :
    observation.modelDump.get "source_zone" = some (.str observation.sourceZone) ∧
      observation.modelDump.get "destination_zone" = some (.str observation.destinationZone) ∧
      observation.modelDump.get "destination_port" = some (.int observation.destinationPort) ∧
      observation.modelDump.get "protocol" = some (.str observation.protocol) ∧
      observation.modelDump.get "disposition" = some (.str observation.disposition) :=
  ⟨rfl, rfl, rfl, rfl, rfl⟩

theorem riskyPath_modelDump (observation : NetworkObservation) :
    riskyPath observation.modelDump =
      .ok (if observation.disposition = "allowed" ∧ Risky observation then
        some (observation.destinationPort, String.ofList (intText observation.destinationPort),
          decide (observation.sourceZone = "internet" ∧
            observation.destinationZone ∈ ["internal", "restricted"]))
      else none) := by
  obtain ⟨hsource, hdestination, hport, _, hdisposition⟩ := modelDump_get observation
  rw [riskyPath, hsource, hdestination, hport, hdisposition, isStr_str]
  by_cases hallowed : observation.disposition = "allowed"
  · simp only [hallowed, decide_true, Bool.not_true, Bool.false_eq_true, if_false, portOf, true_and,
      isStr_str]
    by_cases hinternet : observation.sourceZone = "internet"
    · simp only [hinternet, decide_true, if_true, true_and]
      refine congrArg Except.ok ?_
      simp only [Risky, hinternet, List.contains_eq_mem, Bool.or_eq_true, Bool.and_eq_true,
        decide_eq_true_eq, and_assoc, true_and]
    · simp only [hinternet, decide_false, Bool.false_eq_true, if_false, false_and]
      refine congrArg Except.ok ?_
      simp only [Risky, hinternet, List.contains_eq_mem, Bool.or_eq_true, Bool.and_eq_true,
        Bool.false_eq_true, decide_eq_true_eq, and_assoc, false_and, false_or]
  · simp only [hallowed, decide_false, Bool.not_false, if_true, false_and, if_false]

theorem protocolOf_modelDump (hupper : UpperProtocols py) (observation : NetworkObservation) :
    ∃ protocol, protocolOf py observation.modelDump = .ok protocol ∧ protocol.length ≤ 3 := by
  rw [protocolOf, (modelDump_get observation).2.2.2.1]
  refine ⟨_, rfl, ?_⟩
  have hknown := observation.known.1
  rcases List.mem_cons.mp hknown with htcp | hrest
  · rw [htcp, hupper.1]
    decide
  · rw [List.mem_singleton.mp hrest, hupper.2]
    decide

theorem assessPath_modelDump (hupper : UpperProtocols py) {item : EvidenceContext}
    {observation : NetworkObservation} (hsource : item.source.length ≤ 160)
    (hport : 1 ≤ observation.destinationPort ∧ observation.destinationPort ≤ 65535)
    (internetToPrivate : Bool) :
    ∃ p, assessPath py item observation.modelDump observation.destinationPort
      (String.ofList (intText observation.destinationPort)) internetToPrivate = .ok p := by
  obtain ⟨protocol, hprotocol, hlength⟩ := protocolOf_modelDump hupper observation
  obtain ⟨plan, hplan⟩ := networkRemediation_ok
  obtain ⟨hget, hget', _⟩ := modelDump_get observation
  have hzone := length_zone observation.zoned.1
  have hzone' := length_zone observation.zoned.2
  have hporttext := length_portText hport
  have hsummary := findingSummary_length hsource hlength hporttext hzone hzone'
  have htitle := recommendationTitle_length hlength hporttext
  have hactions : Within 1 20 recommendationActions.length := by decide
  have hrationale : Within 1 2000 recommendationRationale.length :=
    within_of_bytes (by decide +kernel)
  have hrefs : [item.ref].length ≤ 20 := (by decide : 1 ≤ 20)
  rw [assessPath, hprotocol, hplan, hget, hget']
  obtain ⟨finding, hfinding⟩ := EvidenceFinding.create_valid
    (if internetToPrivate && SENSITIVE_PORTS.contains observation.destinationPort then
      AnalysisSeverity.high else .medium)
    (findingTitle_length internetToPrivate
      (SENSITIVE_PORTS.contains observation.destinationPort)) hsummary
    (findingConfidence (internetToPrivate && SENSITIVE_PORTS.contains observation.destinationPort))
    hrefs
  obtain ⟨recommendation, hrecommendation⟩ := Recommendation.create_valid
    (if internetToPrivate && SENSITIVE_PORTS.contains observation.destinationPort then
      RecommendationPriority.high else .medium) (some plan) htitle hrationale hactions hrefs
  refine ⟨(finding, recommendation), ?_⟩
  refine Except.bind_ok_iff.mpr ⟨protocol, rfl, ?_⟩
  refine Except.bind_ok_iff.mpr ⟨finding, hfinding, ?_⟩
  refine Except.bind_ok_iff.mpr ⟨plan, rfl, ?_⟩
  exact Except.bind_ok_iff.mpr ⟨recommendation, hrecommendation, rfl⟩

theorem assessItem_reported (hupper : UpperProtocols py) (reported : ReportedItem)
    {observation : NetworkObservation} (hnetwork : reported.network = some observation) :
    ∃ assessed, assessItem py reported.item observation.modelDump = .ok assessed ∧
      assessed.toList.map (fun p => (p.1.evidenceRefs, p.2.evidenceRefs)) =
        if observation.disposition = "allowed" ∧ Risky observation then
          [([reported.item.ref], [reported.item.ref])]
        else [] := by
  rw [assessItem, riskyPath_modelDump]
  by_cases hrisky : observation.disposition = "allowed" ∧ Risky observation
  · simp only [if_pos hrisky]
    obtain ⟨p, hp⟩ := assessPath_modelDump hupper reported.sourceLength
      (reported.portRange observation hnetwork) (decide (observation.sourceZone = "internet" ∧
        observation.destinationZone ∈ ["internal", "restricted"]))
    obtain ⟨hfinding, hrecommendation⟩ := assessPath_ok hp
    refine ⟨some p, Except.bind_ok_iff.mpr ⟨_, rfl, Except.bind_ok_iff.mpr ⟨p, hp, rfl⟩⟩, ?_⟩
    simp only [Option.toList_some, List.map_cons, List.map_nil, hfinding, hrecommendation]
  · simp only [if_neg hrisky]
    exact ⟨none, rfl, rfl⟩

theorem exposes_some {reported : ReportedItem} {observation : NetworkObservation}
    (hkind : reported.item.kind = "network_observation")
    (hnetwork : reported.network = some observation) :
    exposes reported = decide (observation.disposition = "allowed" ∧ Risky observation) := by
  simp only [exposes, hkind, hnetwork, Option.any_some, true_and, decide_eq_true_eq]

theorem observation_reported (reported : ReportedItem) :
    observation reported.item = none ∧ exposes reported = false ∨
      ∃ network, reported.item.kind = "network_observation" ∧ reported.network = some network ∧
        observation reported.item = some network.modelDump := by
  by_cases hkind : reported.item.kind = "network_observation"
  · cases hnetwork : reported.network with
    | none =>
        have hdumped := reported.dumped
        rw [hnetwork, Option.map_none] at hdumped
        refine .inl ⟨by rw [observation, if_pos hkind, hdumped], ?_⟩
        simp only [exposes, hnetwork, Option.any_none, Bool.false_eq_true, and_false, decide_false]
    | some network =>
        have hdumped := reported.dumped
        rw [hnetwork, Option.map_some] at hdumped
        exact .inr ⟨network, hkind, rfl, by rw [observation, if_pos hkind, hdumped]⟩
  · refine .inl ⟨by rw [observation, if_neg hkind], ?_⟩
    simp only [exposes, hkind, false_and, decide_false]

theorem assessItems_reported (hupper : UpperProtocols py) (items : List ReportedItem) :
    ∃ assessed, assessItems py (items.map (·.item)) = .ok assessed ∧
      assessed.map (fun p => (p.1.evidenceRefs, p.2.evidenceRefs)) =
        (items.filter exposes).map fun reported =>
          ([reported.item.ref], [reported.item.ref]) := by
  induction items with
  | nil => exact ⟨[], rfl, rfl⟩
  | cons reported items ih =>
      obtain ⟨rest, hrest, hrefs⟩ := ih
      rw [List.map_cons, assessItems]
      rcases observation_reported reported with ⟨hnone, hquiet⟩ | ⟨network, hkind, hnetwork, hsome⟩
      · rw [hnone, List.filter_cons_of_neg (by simp [hquiet])]
        exact ⟨rest, hrest, hrefs⟩
      · rw [hsome]
        obtain ⟨assessed, hassessed, hcited⟩ := assessItem_reported hupper reported hnetwork
        refine ⟨assessed.toList ++ rest, ?_, ?_⟩
        · exact Except.bind_ok_iff.mpr ⟨assessed, hassessed,
            Except.bind_ok_iff.mpr ⟨rest, hrest, rfl⟩⟩
        · rw [List.map_append, hcited, hrefs]
          have hexposes := exposes_some hkind hnetwork
          by_cases hrisky : network.disposition = "allowed" ∧ Risky network
          · rw [if_pos hrisky, List.filter_cons_of_pos (by rw [hexposes, decide_eq_true hrisky])]
            rfl
          · rw [if_neg hrisky, List.filter_cons_of_neg (by simp [hexposes, hrisky])]
            rfl

theorem assessNetworkEvidence_reported (hupper : UpperProtocols py) (items : List ReportedItem) :
    ∃ assessment, assessNetworkEvidence py (items.map (·.item)) = .ok assessment ∧
      assessment.findings.map (·.evidenceRefs) =
        ((items.filter exposes).take 10).map (fun reported => [reported.item.ref]) ∧
      assessment.recommendations.map (·.evidenceRefs) =
        ((items.filter exposes).take 10).map (fun reported => [reported.item.ref]) ∧
      assessment.findings.length = assessment.recommendations.length ∧
      (assessment.gaps ≠ [] ↔ assessment.findings = []) := by
  obtain ⟨assessed, hassessed, hrefs⟩ := assessItems_reported hupper items
  have hfindings : assessed.map (fun p => p.1.evidenceRefs) =
      (items.filter exposes).map fun reported => [reported.item.ref] := by
    have h := congrArg (List.map Prod.fst) hrefs
    rwa [List.map_map, List.map_map] at h
  have hrecommendations : assessed.map (fun p => p.2.evidenceRefs) =
      (items.filter exposes).map fun reported => [reported.item.ref] := by
    have h := congrArg (List.map Prod.snd) hrefs
    rwa [List.map_map, List.map_map] at h
  refine ⟨_, Except.bind_ok_iff.mpr ⟨assessed, hassessed, rfl⟩, ?_, ?_, ?_, ?_⟩
  · simp only [List.map_take, List.map_map, Function.comp_def, hfindings]
  · simp only [List.map_take, List.map_map, Function.comp_def, hrecommendations]
  · simp only [List.length_take, List.length_map]
  · simp only [List.take_eq_nil_iff, List.map_eq_nil_iff, OfNat.ofNat_ne_zero, false_or]
    split
    · rename_i hunobserved
      have hquiet : items.filter exposes = [] := by
        refine List.filter_eq_nil_iff.mpr fun reported hreported => ?_
        have hnone := List.all_eq_true.mp hunobserved reported.item
          (List.mem_map_of_mem hreported)
        rcases observation_reported reported with ⟨_, hquiet⟩ | ⟨network, _, _, hsome⟩
        · simp [hquiet]
        · rw [hsome] at hnone
          cases hnone
      rw [hquiet] at hrefs
      exact iff_of_true nofun (List.map_eq_nil_iff.mp hrefs)
    · split
      · rename_i hnil
        exact iff_of_true nofun hnil
      · rename_i hsome
        exact iff_of_false (fun h => h rfl) hsome

end Items

section Builder

def Observed (reads : ContextReads) : Prop :=
  ∀ row ∈ reads.attachedEvidence, ∀ network ∈ row.network,
    ∃ observation : NetworkObservation, network = observation.modelDump ∧
      1 ≤ observation.destinationPort ∧ observation.destinationPort ≤ 65535

theorem evidence_of_build {py : PyText} {maxChars : Int} {reads : ContextReads}
    {context : InvestigationContext} (hbuild : build py maxChars reads = .ok context) :
    ∀ item ∈ context.incidentEvidence, ∃ row ∈ reads.attachedEvidence,
      item = evidenceContext row := by
  have hbase : ∀ (incident : IncidentRow),
      ∀ item ∈ (untruncated reads incident).incidentEvidence,
        ∃ row ∈ reads.attachedEvidence, item = evidenceContext row := by
    intro incident item hitem
    obtain ⟨row, hrow, rfl⟩ := List.mem_map.mp hitem
    exact ⟨row, List.mem_of_mem_take hrow, rfl⟩
  simp only [build] at hbuild
  split at hbuild
  · cases hbuild
  · rename_i incident _
    rcases enforceSize_cases hbuild with ⟨_, rfl⟩ | ⟨_, trimmed, hpop, rfl⟩
    · exact hbase incident
    · intro item hitem
      have htrim := (popUntilFits_ok (trimmed_shorten py (untruncated reads incident)) hpop).1
      exact hbase incident item (htrim.evidence hitem)

theorem reported_of_row {row : EvidenceRow}
    (hrow : ∀ network ∈ row.network, ∃ observation : NetworkObservation,
      network = observation.modelDump ∧
        1 ≤ observation.destinationPort ∧ observation.destinationPort ≤ 65535) :
    ∃ reported : ReportedItem, reported.item = evidenceContext row := by
  have hsource : (evidenceContext row).source.length ≤ 160 := by
    simp only [evidenceContext, cleanString, length_slice]
    exact Nat.min_le_left _ _
  cases hnetwork : row.network with
  | none => exact ⟨⟨evidenceContext row, none, hnetwork, hsource, nofun⟩, rfl⟩
  | some network =>
      obtain ⟨observation, hdump, hport⟩ := hrow network hnetwork
      have hdumped : (evidenceContext row).network = some observation.modelDump := by
        rw [← hdump]
        exact hnetwork
      refine ⟨⟨evidenceContext row, some observation, hdumped, hsource, ?_⟩, rfl⟩
      rintro _ ⟨⟩
      exact hport

theorem reported_of_build {py : PyText} {maxChars : Int} {reads : ContextReads}
    {context : InvestigationContext} (hobserved : Observed reads)
    (hbuild : build py maxChars reads = .ok context) :
    ∃ items : List ReportedItem, items.map (·.item) = context.incidentEvidence := by
  have hitems : ∀ item ∈ context.incidentEvidence,
      ∃ reported : ReportedItem, reported.item = item := by
    intro item hitem
    obtain ⟨row, hrow, rfl⟩ := evidence_of_build hbuild item hitem
    exact reported_of_row (hobserved row hrow)
  have hrange : context.incidentEvidence ∈ Set.range (List.map ReportedItem.item) := by
    rw [Set.range_list_map]
    exact hitems
  exact hrange

end Builder

section Nodes

variable {σ : Type} {env : Environment σ} {state : InvestigationState}
  {context : InvestigationContext}

theorem capFindings_refs {quality : EvidenceQuality} {findings : List EvidenceFinding} :
    ∀ finding ∈ capFindings quality findings, ∃ original ∈ findings,
      finding.evidenceRefs = original.evidenceRefs := by
  intro finding hfinding
  cases hceiling : confidenceCeiling quality with
  | none =>
      rw [capFindings, hceiling] at hfinding
      exact ⟨finding, hfinding, rfl⟩
  | some ceiling =>
      rw [capFindings, hceiling] at hfinding
      obtain ⟨original, horiginal, rfl⟩ := List.mem_map.mp hfinding
      exact ⟨original, horiginal, rfl⟩

theorem assessment_grounded {py : PyText} {assessment : NetworkAssessment}
    (hclosed : RefClosed context)
    (hassessment : assessNetworkEvidence py context.incidentEvidence = .ok assessment) :
    (∀ finding ∈ assessment.findings, Cites finding.evidenceRefs context.validEvidenceRefs) ∧
      ∀ recommendation ∈ assessment.recommendations,
        Cites recommendation.evidenceRefs context.validEvidenceRefs := by
  have hvalid : ∀ item ∈ context.incidentEvidence,
      Cites [item.ref] context.validEvidenceRefs := by
    intro item hitem
    refine ⟨nofun, fun ref href => ?_⟩
    rw [List.mem_singleton.mp href, hclosed.cited]
    exact .inr (.inr (.inr (.inl ⟨item, hitem, rfl⟩)))
  obtain ⟨hfindings, hrecommendations⟩ := assessNetworkEvidence_cites hassessment
  constructor
  · intro finding hfinding
    obtain ⟨item, hitem, hrefs⟩ := hfindings finding hfinding
    rw [hrefs]
    exact hvalid item hitem
  · intro recommendation hrecommendation
    obtain ⟨item, hitem, hrefs⟩ := hrecommendations recommendation hrecommendation
    rw [hrefs]
    exact hvalid item hitem

theorem mergedAnalysis_grounded {network : NetworkAssessment} {output : EvidenceAnalysis}
    {quality : EvidenceQuality} {validRefs : List String}
    (hnetwork : ∀ finding ∈ network.findings, Cites finding.evidenceRefs validRefs)
    (houtput : ∀ finding ∈ output.findings, Cites finding.evidenceRefs validRefs) :
    ∀ finding ∈ (mergedAnalysis quality network output).findings,
      Cites finding.evidenceRefs validRefs := by
  intro finding hfinding
  obtain ⟨original, horiginal, hrefs⟩ := capFindings_refs finding hfinding
  rw [hrefs]
  rcases List.mem_append.mp (List.mem_of_mem_take horiginal) with hmem | hmem
  · exact hnetwork original hmem
  · exact houtput original hmem

theorem mergedRecommendations_grounded {network : NetworkAssessment}
    {output : PlannedRecommendationSet} {validRefs : List String}
    (hnetwork : ∀ recommendation ∈ network.recommendations,
      Cites recommendation.evidenceRefs validRefs)
    (houtput : ∀ recommendation ∈ output.recommendations,
      Cites recommendation.evidenceRefs validRefs) :
    ∀ recommendation ∈ (mergedRecommendations network output).recommendations,
      Cites recommendation.evidenceRefs validRefs := by
  intro recommendation hrecommendation
  rcases List.mem_append.mp (List.mem_of_mem_take hrecommendation) with hmem | hmem
  · exact hnetwork recommendation hmem
  · exact houtput recommendation hmem

structure ProviderGrounded (env : Environment σ) (validRefs : List String) : Prop where
  evidence : ∃ response, env.evidenceResponse = .ok response ∧
    ∀ finding ∈ response.output.findings, Cites finding.evidenceRefs validRefs
  risk : ∃ response, env.riskResponse = .ok response ∧
    Bucket response.output.severity response.output.score
  narrative : ∃ response, env.narrativeResponse = .ok response
  recommendation : ∃ response, env.recommendationResponse = .ok response ∧
    ∀ recommendation ∈ response.output.recommendations,
      Cites recommendation.evidenceRefs validRefs

theorem analysisNodes_accepts {assessment : NetworkAssessment}
    (hcontext : state.context = some context) (hrunning : env.cancelled = false)
    (hclosed : RefClosed context)
    (hassessment : assessNetworkEvidence env.py context.incidentEvidence = .ok assessment)
    (hprovider : ProviderGrounded env context.validEvidenceRefs) :
    ∃ state' result, analysisNodes env state = .ok state' ∧ state'.result = some result ∧
      Grounded context.validEvidenceRefs result := by
  obtain ⟨evidence, hevidence, hfindings⟩ := hprovider.evidence
  obtain ⟨risk, hrisk, hbucket⟩ := hprovider.risk
  obtain ⟨narrative, hnarrative⟩ := hprovider.narrative
  obtain ⟨recommendation, hrecommendation, hcited⟩ := hprovider.recommendation
  obtain ⟨hnetwork, hnetwork'⟩ := assessment_grounded hclosed hassessment
  have hgrounded : Grounded context.validEvidenceRefs (assembled
      (capNarrative context.incident.evidenceQuality narrative.output)
      (mergedAnalysis context.incident.evidenceQuality assessment evidence.output) risk.output
      (context.techniques.map mitreItem)
      (mergedRecommendations assessment recommendation.output)) := by
    refine ⟨?_, ?_, hbucket⟩
    · exact mergedAnalysis_grounded hnetwork hfindings
    · exact mergedRecommendations_grounded hnetwork' hcited
  have hvalid := validate_ok_iff.mpr hgrounded
  have hraise : ∀ {α : Type} {x : Except String α} {a : α}, x = .ok a → raising x = .ok a :=
    fun h => raising_ok_iff.mpr h
  have hget : ∀ {α : Type} (key : String) (value : α), get key (some value) = .ok value :=
    fun _ _ => rfl
  have hbind : ∀ {α β : Type} (a : α) (f : α → Node β), ((Except.ok a : Node α) >>= f) = f a :=
    fun _ _ => rfl
  have hrun : ∃ state', analysisNodes env state = .ok state' ∧ state'.result = some (assembled
      (capNarrative context.incident.evidenceQuality narrative.output)
      (mergedAnalysis context.incident.evidenceQuality assessment evidence.output) risk.output
      (context.techniques.map mitreItem)
      (mergedRecommendations assessment recommendation.output)) := by
    simp only [analysisNodes, timelineNode, evidenceAnalysisNode, riskAnalysisNode,
      mitreContextNode, investigationNode, recommendationNode, validationNode, providerUpdate,
      hcontext, hrunning, hget, hraise hevidence, hraise hrisk, hraise hnarrative,
      hraise hrecommendation, hraise hassessment, hbind, hvalid, pure, Except.pure,
      Bool.false_eq_true, if_false]
    exact ⟨_, rfl, rfl⟩
  obtain ⟨state', hstate, hresult⟩ := hrun
  exact ⟨state', _, hstate, hresult, hgrounded⟩

theorem network_assessment_sound_and_citable (py : PyText) (hupper : UpperProtocols py) :
    (∀ items : List ReportedItem, ∃ assessment,
      assessNetworkEvidence py (items.map (·.item)) = .ok assessment ∧
      assessment.findings.map (·.evidenceRefs) =
        ((items.filter exposes).take 10).map (fun reported => [reported.item.ref]) ∧
      assessment.recommendations.map (·.evidenceRefs) =
        ((items.filter exposes).take 10).map (fun reported => [reported.item.ref]) ∧
      assessment.findings.length = assessment.recommendations.length ∧
      (assessment.gaps ≠ [] ↔ assessment.findings = [])) ∧
    ∀ (env : Environment σ) (state : InvestigationState) (context : InvestigationContext),
      env.py = py → Observed env.reads → build env.py env.maxChars env.reads = .ok context →
      state.context = some context → env.cancelled = false →
      ProviderGrounded env context.validEvidenceRefs →
        (∃ items : List ReportedItem, items.map (·.item) = context.incidentEvidence) ∧
        ∃ state' result, analysisNodes env state = .ok state' ∧ state'.result = some result ∧
          Grounded context.validEvidenceRefs result := by
  refine ⟨assessNetworkEvidence_reported hupper, ?_⟩
  intro env state context hpy hobserved hbuild hcontext hrunning hprovider
  obtain ⟨items, hitems⟩ := reported_of_build hobserved hbuild
  obtain ⟨_, _, _, hclosed, _, _⟩ := build_ok hbuild
  obtain ⟨assessment, hassessment, _⟩ := assessNetworkEvidence_reported hupper items
  rw [hitems, ← hpy] at hassessment
  exact ⟨⟨items, hitems⟩,
    analysisNodes_accepts hcontext hrunning hclosed hassessment hprovider⟩

end Nodes

section Exposed

def sshObservation (disposition : String) (h : disposition ∈ dispositions) : NetworkObservation :=
  ⟨"internet", "restricted", 22, "tcp", disposition, by decide, by decide, h⟩

def sshRow (id : Nat) (disposition : String) (h : disposition ∈ dispositions) : EvidenceRow :=
  ⟨id, "network_observation", "firewall review", "Inbound session",
    some (sshObservation disposition h).modelDump, none⟩

def sshIncident : IncidentRow :=
  { noIncident with id := 2, title := "Remote access to a restricted host" }

def sshReads : ContextReads where
  incident := some sshIncident
  alerts := []
  events := []
  techniques := []
  attachedEvidence := [sshRow 5 "allowed" (by decide), sshRow 6 "blocked" (by decide)]
  classification := none

def sshRun : Environment Unit :=
  { reportedRun with
    reads := sshReads
    maxChars := serializedSize (untruncated sshReads sshIncident) }

theorem observed_sshReads : Observed sshReads := by
  intro row hrow network hnetwork
  rcases List.mem_cons.mp hrow with rfl | hrow
  · obtain rfl := Option.some.inj hnetwork
    exact ⟨sshObservation "allowed" (by decide), rfl, by decide⟩
  · obtain rfl := List.mem_singleton.mp hrow
    obtain rfl := Option.some.inj hnetwork
    exact ⟨sshObservation "blocked" (by decide), rfl, by decide⟩

theorem sshRun_accepted : ∃ context state' result,
    build asciiText sshRun.maxChars sshReads = .ok context ∧
      analysisNodes sshRun { investigationId := "", incidentId := "", context := some context } =
        .ok state' ∧ state'.result = some result ∧
      Grounded context.validEvidenceRefs result := by
  have hupper : UpperProtocols asciiText := by
    unfold UpperProtocols
    decide
  have hbuild : build asciiText sshRun.maxChars sshReads = .ok (untruncated sshReads sshIncident) :=
    build_of_fits rfl (Int.le_refl _)
  have hvalid : Cites ["incident:" ++ uuidText 2]
      (untruncated sshReads sshIncident).validEvidenceRefs := by
    refine ⟨nofun, fun ref href => ?_⟩
    rw [List.mem_singleton.mp href, (untruncated_closed sshReads sshIncident).cited]
    exact .inl rfl
  have hprovider : ProviderGrounded sshRun
      (untruncated sshReads sshIncident).validEvidenceRefs := by
    refine ⟨⟨_, rfl, ?_⟩, ⟨_, rfl, ?_⟩, ⟨_, rfl⟩, ⟨_, rfl, ?_⟩⟩
    · intro finding hfinding
      rw [List.mem_singleton.mp hfinding]
      exact hvalid
    · exact (bucket_iff .high 70).mpr rfl
    · intro recommendation hrecommendation
      rw [List.mem_singleton.mp hrecommendation]
      exact hvalid
  obtain ⟨_, state', result, hstate, hresult, hgrounded⟩ :=
    (network_assessment_sound_and_citable asciiText hupper).2 sshRun
      { investigationId := "", incidentId := "",
        context := some (untruncated sshReads sshIncident) } _ rfl observed_sshReads hbuild rfl rfl
      hprovider
  exact ⟨_, state', result, hbuild, hstate, hresult, hgrounded⟩

end Exposed

end Investigation

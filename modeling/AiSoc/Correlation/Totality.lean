import AiSoc.Correlation.Detections

namespace Correlation

open Investigation (severities)
open Permissions (Uuid Timestamp)
open PyJson PyStr Database Query Transition

section Severities

variable {env : Env} {db : Database} {event : Event} {result : DetectionResult}

def EventCreate.Valid (payload : EventCreate) : Prop :=
  ∀ severity ∈ payload.severity, severity ∈ severities

theorem scored_of_severity {severity : String} (h : severity ∈ severities) :
    ∃ score, findingScores.lookup severity = some score := by
  simp only [severities, List.mem_cons, List.not_mem_nil, or_false] at h
  rcases h with rfl | rfl | rfl | rfl
  · exact ⟨25, rfl⟩
  · exact ⟨50, rfl⟩
  · exact ⟨75, rfl⟩
  · exact ⟨95, rfl⟩

theorem severity_bruteForce (h : bruteForce env db event = some (some result)) :
    result.severity = "high" := by
  unfold bruteForce at h
  split at h
  · cases h
  · split at h
    · cases h
    · simp only at h
      split at h
      · cases h
      · obtain ⟨first, _, h⟩ := Option.bind_eq_some_iff.mp h
        obtain ⟨last, _, h⟩ := Option.bind_eq_some_iff.mp h
        cases h
        rfl

theorem severity_passwordSpray (h : passwordSpray env db event = some (some result)) :
    result.severity = "high" := by
  unfold passwordSpray at h
  split at h
  · cases h
  · split at h
    · cases h
    · simp only at h
      split at h
      · cases h
      · cases h
        rfl

theorem severity_suspiciousPrivilegeChange
    (h : suspiciousPrivilegeChange env db event = some (some result)) :
    result.severity = "high" := by
  unfold suspiciousPrivilegeChange at h
  split at h
  · cases h
  · simp only at h
    split at h
    · cases h
    · cases h
      rfl

theorem severity_largeDownload (h : largeDownload env db event = some (some result)) :
    result.severity = "medium" := by
  unfold largeDownload at h
  split at h
  · cases h
  · split at h
    · cases h
    · split at h
      · cases h
      · cases h
        rfl

theorem severity_loginAfterFailures (h : loginAfterFailures env db event = some (some result)) :
    result.severity = "high" := by
  unfold loginAfterFailures at h
  split at h
  · cases h
  · simp only at h
    split at h
    · cases h
    · obtain ⟨first, _, h⟩ := Option.bind_eq_some_iff.mp h
      cases h
      rfl

theorem severity_mlAnomaly (h : mlAnomaly env db event = some (some result)) :
    result.severity = "medium" := by
  obtain ⟨answer, _, h⟩ := Option.bind_eq_some_iff.mp h
  cases answer with
  | none => cases h
  | some anomaly =>
      simp only at h
      split at h
      · cases h
      · cases h
        rfl

theorem severity_cloudFinding (h : cloudFinding env db event = some (some result)) :
    result.severity = orDefault event.severity "medium" := by
  unfold cloudFinding at h
  split at h
  · cases h
  · cases h
    rfl

theorem severity_of_rule {rule : Rule} (hrule : rule ∈ ruleRegistry)
    (hvalid : ∀ severity ∈ event.severity, severity ∈ severities)
    (h : rule env db event = some (some result)) : result.severity ∈ severities := by
  have hhigh : "high" ∈ severities := by simp [severities]
  have hmedium : "medium" ∈ severities := by simp [severities]
  simp only [ruleRegistry, List.mem_cons, List.not_mem_nil, or_false] at hrule
  rcases hrule with rfl | rfl | rfl | rfl | rfl | rfl | rfl
  · exact severity_bruteForce h ▸ hhigh
  · exact severity_passwordSpray h ▸ hhigh
  · exact severity_suspiciousPrivilegeChange h ▸ hhigh
  · exact severity_largeDownload h ▸ hmedium
  · exact severity_loginAfterFailures h ▸ hhigh
  · exact severity_mlAnomaly h ▸ hmedium
  · rw [severity_cloudFinding h]
    unfold orDefault
    split
    · rename_i severity hseverity
      split
      · exact hmedium
      · exact hvalid severity hseverity
    · exact hmedium

end Severities

section Rules

variable {env : Env} {db : Database} {event : Event}

structure Sensible (env : Env) : Prop where
  bruteForce : 0 < env.settings.bruteForceThreshold
  loginAfterFailures : 0 < env.settings.loginAfterFailuresThreshold
  scores : ∀ events event, (env.scoreEvent events event).isSome = true

theorem exists_first {rows : List Event} {threshold : Int} (hpos : 0 < threshold)
    (hmany : ¬ (rows.length : Int) < threshold) :
    (∃ first, rows.head? = some first) ∧ ∃ last, rows.getLast? = some last := by
  have hne : rows ≠ [] := by
    rintro rfl
    exact hmany hpos
  exact ⟨⟨_, List.head?_eq_some_head hne⟩, ⟨_, List.getLast?_eq_some_getLast hne⟩⟩

theorem total_bruteForce (h : Sensible env) : ∃ answer, bruteForce env db event = some answer := by
  unfold bruteForce
  split
  · exact ⟨_, rfl⟩
  · split
    · exact ⟨_, rfl⟩
    · simp only
      split
      · exact ⟨_, rfl⟩
      · rename_i hmany
        obtain ⟨⟨first, hfirst⟩, ⟨last, hlast⟩⟩ := exists_first h.bruteForce hmany
        rw [hfirst, hlast]
        exact ⟨_, rfl⟩

theorem total_passwordSpray : ∃ answer, passwordSpray env db event = some answer := by
  unfold passwordSpray
  split
  · exact ⟨_, rfl⟩
  · split
    · exact ⟨_, rfl⟩
    · simp only
      split <;> exact ⟨_, rfl⟩

theorem total_suspiciousPrivilegeChange :
    ∃ answer, suspiciousPrivilegeChange env db event = some answer := by
  unfold suspiciousPrivilegeChange
  split
  · exact ⟨_, rfl⟩
  · simp only
    split <;> exact ⟨_, rfl⟩

theorem total_largeDownload : ∃ answer, largeDownload env db event = some answer := by
  unfold largeDownload
  split
  · exact ⟨_, rfl⟩
  · split
    · exact ⟨_, rfl⟩
    · split <;> exact ⟨_, rfl⟩

theorem total_loginAfterFailures (h : Sensible env) :
    ∃ answer, loginAfterFailures env db event = some answer := by
  unfold loginAfterFailures
  split
  · exact ⟨_, rfl⟩
  · simp only
    split
    · exact ⟨_, rfl⟩
    · rename_i hmany
      obtain ⟨⟨first, hfirst⟩, _⟩ := exists_first h.loginAfterFailures hmany
      rw [hfirst]
      exact ⟨_, rfl⟩

theorem total_mlAnomaly (h : Sensible env) : ∃ answer, mlAnomaly env db event = some answer := by
  obtain ⟨scored, hscored⟩ := Option.isSome_iff_exists.mp (h.scores db.events event)
  rw [mlAnomaly, hscored]
  cases scored with
  | none => exact ⟨_, rfl⟩
  | some anomaly =>
      simp only [Option.bind_eq_bind, Option.bind_some]
      split <;> exact ⟨_, rfl⟩

theorem total_cloudFinding : ∃ answer, cloudFinding env db event = some answer := by
  unfold cloudFinding
  split
  · exact ⟨_, rfl⟩
  · exact ⟨_, rfl⟩

theorem total_evaluateEvent (h : Sensible env) (db : Database) (event : Event) :
    ∃ results, evaluateEvent env db event = some results := by
  have hrules : ∀ rule ∈ ruleRegistry, ∃ answer, rule env db event = some answer := by
    intro rule hrule
    simp only [ruleRegistry, List.mem_cons, List.not_mem_nil, or_false] at hrule
    rcases hrule with rfl | rfl | rfl | rfl | rfl | rfl | rfl
    · exact total_bruteForce h
    · exact total_passwordSpray
    · exact total_suspiciousPrivilegeChange
    · exact total_largeDownload
    · exact total_loginAfterFailures h
    · exact total_mlAnomaly h
    · exact total_cloudFinding
  obtain ⟨answers, hanswers⟩ := Option.exists_mapM_iff.mpr hrules
  exact ⟨answers.reduceOption, by rw [evaluateEvent, hanswers]; rfl⟩

end Rules

section Correlations

variable {env : Env} {db db' : Database} {alert : Alert} {pending : List Alert}

def Scored (db : Database) : Prop :=
  ∀ alert ∈ db.alerts, alert.severity ∈ severities

theorem exists_max {α : Type*} {xs : List α} (hne : xs ≠ []) (value : α → Int) :
    ∃ t, (xs.map value).max? = some t := by
  refine Option.ne_none_iff_exists'.mp fun hnone => hne ?_
  exact List.map_eq_nil_iff.mp (List.max?_eq_none_iff.mp hnone)

theorem exists_min {α : Type*} {xs : List α} (hne : xs ≠ []) (value : α → Int) :
    ∃ t, (xs.map value).min? = some t := by
  refine Option.ne_none_iff_exists'.mp fun hnone => hne ?_
  exact List.map_eq_nil_iff.mp (List.min?_eq_none_iff.mp hnone)

theorem linked_reads (env : Env) (id : Uuid) {alertIds : List Uuid} {a : Alert} (ha : a ∈ db.alerts)
    (hid : a.id ∈ alertIds) :
    (∃ t, (((db.addAlertLinks id alertIds).alertsForIncident env id).map (·.firstSeen)).min? =
        some t) ∧
      (∃ t, (((db.addAlertLinks id alertIds).alertsForIncident env id).map (·.lastSeen)).max? =
        some t) ∧
      (Scored db → ∃ scores, ((db.addAlertLinks id alertIds).alertsForIncident env id).mapM
        (fun item => findingScores.lookup item.severity) = some scores ∧
        ∃ topScore, scores.max? = some topScore) := by
  have hne : (db.addAlertLinks id alertIds).alertsForIncident env id ≠ [] := by
    refine List.ne_nil_of_mem (mem_alertsForIncident.mpr ⟨ha, ?_⟩)
    simp only [addAlertLinks, List.mem_append, List.mem_map, List.mem_filter, decide_eq_true_eq]
    by_cases hold : (id, a.id) ∈ db.links
    · exact Or.inl hold
    · exact Or.inr ⟨a.id, ⟨hid, hold⟩, rfl⟩
  refine ⟨exists_min hne (·.firstSeen), exists_max hne (·.lastSeen), fun hscored => ?_⟩
  have hall : ∀ item ∈ (db.addAlertLinks id alertIds).alertsForIncident env id,
      ∃ score, findingScores.lookup item.severity = some score := fun item hitem =>
    scored_of_severity (hscored item (mem_alertsForIncident.mp hitem).1)
  obtain ⟨scores, hscores⟩ := Option.exists_mapM_iff.mpr hall
  have hlength := (Option.mapM_eq_some_iff.mp hscores).length_eq
  refine ⟨scores, hscores, Option.ne_none_iff_exists'.mp fun hnone => hne ?_⟩
  rw [List.max?_eq_none_iff.mp hnone] at hlength
  exact List.length_eq_zero_iff.mp hlength

theorem total_correlateCandidates (halert : alert ∈ db.alerts)
    (hne : candidateAlerts env db alert ≠ []) :
    ∃ db', correlateCandidates env db alert (candidateAlerts env db alert) = some db' := by
  obtain ⟨candidate, hcandidate⟩ := List.exists_mem_of_ne_nil _ hne
  have hstored : candidate ∈ db.alerts := candidate_stored halert hcandidate
  have hid : candidate.id ∈ (candidateAlerts env db alert).map (·.id) :=
    List.mem_map_of_mem hcandidate
  unfold correlateCandidates
  simp only
  split
  · rename_i incident _
    obtain ⟨⟨firstSeen, hfirst⟩, ⟨lastSeen, hlast⟩, _⟩ :=
      linked_reads env incident.id hstored hid
    simp only [Option.bind_eq_bind, Option.bind_some, hfirst, hlast]
    exact ⟨_, rfl⟩
  · obtain ⟨first, hfirst⟩ := exists_min hne (·.firstSeen)
    obtain ⟨last, hlast⟩ := exists_max hne (·.lastSeen)
    have hcreated : ∀ new : Uuid → Incident, candidate ∈ (db.createIncident new).1.alerts :=
      fun _ => hstored
    simp only [Option.bind_eq_bind, hfirst, hlast, Option.bind_some]
    obtain ⟨⟨firstSeen, hfirstSeen⟩, ⟨lastSeen, hlastSeen⟩, _⟩ := linked_reads env _ (hcreated _) hid
    rw [hfirstSeen, Option.bind_some, hlastSeen]
    exact ⟨_, rfl⟩

theorem total_correlateCloudFinding (halert : alert ∈ db.alerts) (hscored : Scored db)
    (hstored : ∃ event ∈ db.events, event.id = alert.eventId) :
    ∃ db', correlateCloudFinding env db alert = some db' := by
  obtain ⟨stored, hmem, heq⟩ := hstored
  obtain ⟨event, hfound⟩ : ∃ event, db.getByIds [alert.eventId] alert.eventId = some event := by
    rw [getByIds, if_pos (List.mem_singleton_self _)]
    exact Option.isSome_iff_exists.mp
      (List.find?_isSome.mpr ⟨stored, hmem, decide_eq_true heq⟩)
  have hid : alert.id ∈ [alert.id] := List.mem_singleton_self _
  unfold correlateCloudFinding
  simp only [hfound, Option.bind_eq_bind, Option.bind_some]
  split
  · rename_i incident _
    obtain ⟨_, ⟨lastSeen, hlast⟩, hscores⟩ :=
      linked_reads env incident.id halert hid
    obtain ⟨scores, hscores, topScore, htop⟩ := hscores hscored
    simp only [Option.bind_some, hscores, htop, hlast]
    exact ⟨_, rfl⟩
  · obtain ⟨score, hscore⟩ := scored_of_severity (hscored alert halert)
    have hcreated : ∀ new : Uuid → Incident, alert ∈ (db.createIncident new).1.alerts :=
      fun _ => halert
    simp only [hscore, Option.bind_some]
    obtain ⟨_, ⟨lastSeen, hlast⟩, hscores⟩ := linked_reads env _ (hcreated _) hid
    obtain ⟨scores, hscores, topScore, htop⟩ := hscores hscored
    rw [hscores, Option.bind_some, htop, Option.bind_some, hlast]
    exact ⟨_, rfl⟩

theorem total_correlateAlert (env : Env) (hc : Consistent db (alert :: pending)) (hscored : Scored db) :
    ∃ db', correlateAlert env db alert = some db' := by
  have halert := hc.pending_stored alert List.mem_cons_self
  unfold correlateAlert
  split
  · obtain ⟨event, hevent, hraised⟩ := hc.raised alert halert
    exact total_correlateCloudFinding halert hscored ⟨event, hevent, hraised.eventId.symm⟩
  · split
    · exact ⟨db, rfl⟩
    · split
      · exact ⟨db, rfl⟩
      · rename_i candidate candidates hcons
        have hne : candidateAlerts env db alert ≠ [] := by
          rw [hcons]
          exact List.cons_ne_nil _ _
        exact hcons ▸ total_correlateCandidates halert hne

theorem scored_correlate (h : correlateAlert env db alert = some db') (hscored : Scored db) :
    Scored db' := by
  rw [Scored, (correlateAlert_frame h).2]
  exact hscored

theorem total_correlate (env : Env) {alerts : List Alert} (hc : Consistent db alerts) (hscored : Scored db) :
    ∃ db', correlate env db alerts = some db' ∧ Consistent db' [] ∧ Scored db' := by
  induction alerts generalizing db with
  | nil => exact ⟨db, rfl, hc, hscored⟩
  | cons alert alerts ih =>
      obtain ⟨db1, h1⟩ := total_correlateAlert env hc hscored
      have hc1 : Consistent db1 alerts := consistent_correlated hc (correlateAlert_cases h1)
      obtain ⟨db', h', hdone⟩ := ih hc1 (scored_correlate h1 hscored)
      refine ⟨db', ?_, hdone⟩
      rw [correlate, List.foldlM_cons, h1]
      exact h'

end Correlations

section Ingestions

variable {env : Env} {db db' : Database} {payload : EventCreate}

theorem severities_buildAlerts {event : Event} {results : List DetectionResult}
    (h : ∀ result ∈ results, result.severity ∈ severities) (id : Uuid) :
    ∀ alert ∈ buildAlerts env event id results, alert.severity ∈ severities := by
  induction results generalizing id with
  | nil =>
      intro alert halert
      cases halert
  | cons result results ih =>
      intro alert halert
      rcases List.mem_cons.mp halert with rfl | halert
      · exact h result List.mem_cons_self
      · exact ih (fun other hother => h other (List.mem_cons_of_mem _ hother)) (id + 1) alert halert

theorem scored_detected {alerts : List Alert} (hvalid : payload.Valid) (hscored : Scored db)
    (h : runDetection env db payload = some (db', alerts)) : Scored db' := by
  have hstored := (runDetection_cases h).stored
  obtain ⟨db1, _, h⟩ := Option.bind_eq_some_iff.mp h
  obtain ⟨results, hresults, h⟩ := Option.bind_eq_some_iff.mp h
  obtain ⟨answers, hanswers, rfl⟩ := Option.map_eq_some_iff.mp hresults
  cases h
  have hseverity : ∀ severity ∈ (normalizeEvent env db.nextId payload).severity,
      severity ∈ severities := hvalid
  intro alert halert
  rw [hstored] at halert
  rcases List.mem_append.mp halert with hold | hnew
  · exact hscored alert hold
  · refine severities_buildAlerts (fun result hresult => ?_) _ alert hnew
    obtain ⟨rule, hrule, hf⟩ := Option.mem_of_mapM hanswers (List.reduceOption_mem_iff.mp hresult)
    exact severity_of_rule hrule hseverity hf

def newEventId (env : Env) (db : Database) (payload : EventCreate) : String :=
  (normalizeEvent env db.nextId payload).eventId

theorem total_runDetection (h : Sensible env)
    (hfresh : newEventId env db payload ∉ db.events.map (·.eventId)) :
    ∃ detected, runDetection env db payload = some detected := by
  have hcreated : db.createEvent (normalizeEvent env db.nextId payload) = some
      { db with events := db.events ++ [normalizeEvent env db.nextId payload],
                nextId := db.nextId + 1 } := by
    unfold createEvent
    exact if_neg hfresh
  obtain ⟨results, hresults⟩ := total_evaluateEvent h { db with
    events := db.events ++ [normalizeEvent env db.nextId payload], nextId := db.nextId + 1 }
    (normalizeEvent env db.nextId payload)
  unfold runDetection
  simp only [hcreated, Option.bind_eq_bind, Option.bind_some, hresults]
  exact ⟨_, rfl⟩

theorem kept_of_ingestEvent (hkept : Consistent db [] ∧ Scored db) (hvalid : payload.Valid)
    (h : ingestEvent env db payload = some db') : (Consistent db' [] ∧ Scored db') ∧
      db'.events.map (·.eventId) = db.events.map (·.eventId) ++ [newEventId env db payload] := by
  obtain ⟨⟨db1, alerts⟩, h1, h2⟩ := Option.bind_eq_some_iff.mp h
  have hdetected := runDetection_cases h1
  obtain ⟨other, hother, hdone⟩ := total_correlate env (hkept.1.detect hdetected)
    (scored_detected hvalid hkept.2 h1)
  cases hother.symm.trans h2
  refine ⟨hdone, ?_⟩
  rw [(correlate_frame h2).1, hdetected.events, List.map_append]
  rfl

end Ingestions

end Correlation

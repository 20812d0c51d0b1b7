import AiSoc.Correlation.Matches
import AiSoc.Correlation.Service
import AiSoc.Library.Except
import Mathlib.Data.List.ReduceOption

namespace Correlation

open Permissions (Uuid Timestamp)
open PyJson PyStr Database

section Results

structure Reports (event : Event) (result : DetectionResult) : Prop where
  username : result.username = event.username
  sourceIp : result.sourceIp = event.sourceIp
  finding : result.ruleId = cloudFindingId →
    result.firstSeen = event.timestamp ∧ result.lastSeen = event.timestamp
  attempts : result.ruleId = bruteForceId ∨ result.ruleId = passwordSprayId →
    truthyText result.sourceIp ≠ none

variable {env : Env} {db : Database} {event : Event} {result : DetectionResult}

theorem truthyText_ne_none {s : String} (h : s ≠ "") : truthyText (some s) ≠ none := by
  simp [truthyText, h]

variable {ruleId : String} {confidence : PyFloat} {firstSeen lastSeen : Timestamp}

theorem reports_of_attempt {sourceIp : String} (hne : ruleId ≠ cloudFindingId)
    (hip : event.sourceIp = some sourceIp) (hnonempty : sourceIp ≠ "")
    (h : Detects event ruleId confidence firstSeen lastSeen result) : Reports event result := by
  refine ⟨h.username, h.sourceIp, fun hid => absurd (h.ruleId.symm.trans hid) hne, fun _ => ?_⟩
  rw [h.sourceIp, hip]
  exact truthyText_ne_none hnonempty

theorem reports_of_other (hother : ruleId ∉ [cloudFindingId, bruteForceId, passwordSprayId])
    (h : Detects event ruleId confidence firstSeen lastSeen result) : Reports event result := by
  simp only [List.mem_cons, List.not_mem_nil, or_false, not_or] at hother
  refine ⟨h.username, h.sourceIp, fun hid => absurd (h.ruleId.symm.trans hid) hother.1, ?_⟩
  rintro (hid | hid)
  · exact absurd (h.ruleId.symm.trans hid) hother.2.1
  · exact absurd (h.ruleId.symm.trans hid) hother.2.2

theorem reports_of_finding
    (h : Detects event cloudFindingId confidence event.timestamp event.timestamp result) :
    Reports event result := by
  refine ⟨h.username, h.sourceIp, fun _ => ⟨h.firstSeen, h.lastSeen⟩, ?_⟩
  have hbruteForce : cloudFindingId ≠ bruteForceId := by simp [cloudFindingId, bruteForceId]
  have hpasswordSpray : cloudFindingId ≠ passwordSprayId := by
    simp [cloudFindingId, passwordSprayId]
  rintro (hid | hid)
  · exact absurd (h.ruleId.symm.trans hid) hbruteForce
  · exact absurd (h.ruleId.symm.trans hid) hpasswordSpray

theorem reports_of_rule {rule : Rule} (hrule : rule ∈ ruleRegistry)
    (h : rule env db event = some (some result)) : Reports event result := by
  simp only [ruleRegistry, List.mem_cons, List.not_mem_nil, or_false] at hrule
  rcases hrule with rfl | rfl | rfl | rfl | rfl | rfl | rfl
  · obtain ⟨sourceIp, first, last, hip, hne, _, hdetects⟩ := detects_bruteForce h
    exact reports_of_attempt (by simp [bruteForceId, cloudFindingId]) hip hne hdetects
  · obtain ⟨sourceIp, first, hip, hne, hdetects⟩ := detects_passwordSpray h
    exact reports_of_attempt (by simp [passwordSprayId, cloudFindingId]) hip hne hdetects
  · obtain ⟨first, hdetects⟩ := detects_suspiciousPrivilegeChange h
    exact reports_of_other (by simp [suspiciousPrivilegeChangeId, cloudFindingId, bruteForceId,
      passwordSprayId]) hdetects
  · exact reports_of_other (by simp [largeDownloadId, cloudFindingId, bruteForceId,
      passwordSprayId]) (detects_largeDownload h)
  · obtain ⟨first, hdetects⟩ := detects_loginAfterFailures h
    exact reports_of_other (by simp [loginAfterFailuresId, cloudFindingId, bruteForceId,
      passwordSprayId]) hdetects
  · obtain ⟨confidence, hdetects⟩ := detects_mlAnomaly h
    exact reports_of_other (by simp [mlAnomalyId, cloudFindingId, bruteForceId, passwordSprayId])
      hdetects
  · obtain ⟨confidence, _, hdetects⟩ := detects_cloudFinding h
    exact reports_of_finding hdetects

theorem reports_of_evaluateEvent {results : List DetectionResult}
    (h : evaluateEvent env db event = some results) (hmem : result ∈ results) :
    Reports event result := by
  obtain ⟨answers, hanswers, rfl⟩ := Option.map_eq_some_iff.mp h
  obtain ⟨rule, hrule, hf⟩ := Option.mem_of_mapM hanswers (List.reduceOption_mem_iff.mp hmem)
  exact reports_of_rule hrule hf

end Results

section Alerts

structure Raised (event : Event) (alert : Alert) : Prop where
  eventId : alert.eventId = event.id
  finding : alert.ruleId = cloudFindingId →
    alert.firstSeen = event.timestamp ∧ alert.lastSeen = event.timestamp
  attempts : alert.ruleId = bruteForceId ∨ alert.ruleId = passwordSprayId →
    truthyText alert.sourceIp ≠ none

variable {env : Env} {event : Event}

theorem raised_of_buildAlerts {results : List DetectionResult} {id : Uuid}
    (h : ∀ result ∈ results, Reports event result) :
    ∀ alert ∈ buildAlerts env event id results, Raised event alert := by
  induction results generalizing id with
  | nil => simp [buildAlerts]
  | cons result results ih =>
      intro alert halert
      rcases List.mem_cons.mp halert with rfl | halert
      · have hreports := h result List.mem_cons_self
        exact ⟨rfl, hreports.finding, hreports.attempts⟩
      · exact ih (fun r hr => h r (List.mem_cons_of_mem _ hr)) alert halert

theorem ids_buildAlerts (env : Env) (event : Event) (results : List DetectionResult) (id : Uuid) :
    (buildAlerts env event id results).map (·.id) = List.range' id results.length := by
  induction results generalizing id with
  | nil => rfl
  | cons result results ih =>
      simp only [buildAlerts, List.map_cons, List.length_cons, List.range'_succ]
      rw [ih]
      rfl

structure Detected (env : Env) (db : Database) (payload : EventCreate) (db' : Database)
    (alerts : List Alert) : Prop where
  events : db'.events = db.events ++ [normalizeEvent env db.nextId payload]
  fresh : (normalizeEvent env db.nextId payload).eventId ∉ db.events.map (·.eventId)
  stored : db'.alerts = db.alerts ++ alerts
  incidents : db'.incidents = db.incidents
  links : db'.links = db.links
  ids : alerts.map (·.id) = List.range' (db.nextId + 1) alerts.length
  nextId : db'.nextId = db.nextId + 1 + alerts.length
  raised : ∀ alert ∈ alerts, Raised (normalizeEvent env db.nextId payload) alert

theorem runDetection_cases {db db' : Database} {payload : EventCreate} {alerts : List Alert}
    (h : runDetection env db payload = some (db', alerts)) :
    Detected env db payload db' alerts := by
  obtain ⟨db1, h1, h⟩ := Option.bind_eq_some_iff.mp h
  obtain ⟨results, hresults, h⟩ := Option.bind_eq_some_iff.mp h
  cases h
  unfold createEvent at h1
  split at h1
  · cases h1
  · rename_i hfresh
    cases h1
    have hids := ids_buildAlerts env (normalizeEvent env db.nextId payload) results (db.nextId + 1)
    have hlen := congrArg List.length hids
    simp only [List.length_map, List.length_range'] at hlen
    refine ⟨rfl, hfresh, rfl, rfl, rfl, ?_, rfl, ?_⟩
    · rw [hids, hlen]
    · exact raised_of_buildAlerts fun result hmem => reports_of_evaluateEvent hresults hmem

end Alerts

end Correlation

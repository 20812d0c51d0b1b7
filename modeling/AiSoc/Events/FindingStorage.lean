import AiSoc.Events.FindingIngestion

namespace Findings

open Correlation (Alert Database DetectionResult Scored cloudFindingId mlAnomalyId)
open Investigation (severities)
open Permissions (Timestamp)
open PyDatetime PyJson PyStr

section Rules

structure IsFinding (event : Correlation.Event) : Prop where
  sourceIp : event.sourceIp = none
  eventType : event.eventType = "s3_public_exposure" ∨ event.eventType = "cloud_finding"
  severity : ∃ severity ∈ severities, event.severity = some severity

variable {env : Correlation.Env} {db : Database} {event : Correlation.Event}

theorem IsFinding.not_type (h : IsFinding event) {eventType : String}
    (hne : eventType ∉ ["s3_public_exposure", "cloud_finding"]) : event.eventType ≠ eventType := by
  rintro rfl
  rcases h.eventType with htype | htype
  · exact hne (htype ▸ List.mem_cons_self)
  · exact hne (htype ▸ List.mem_cons_of_mem _ List.mem_cons_self)

theorem quiet_bruteForce (h : IsFinding event) :
    Correlation.bruteForce env db event = some none := by
  rw [Correlation.bruteForce, h.sourceIp]

theorem quiet_passwordSpray (h : IsFinding event) :
    Correlation.passwordSpray env db event = some none := by
  rw [Correlation.passwordSpray, h.sourceIp]

theorem quiet_suspiciousPrivilegeChange (h : IsFinding event) :
    Correlation.suspiciousPrivilegeChange env db event = some none := by
  rw [Correlation.suspiciousPrivilegeChange, if_pos (h.not_type (by decide))]

theorem quiet_largeDownload (h : IsFinding event) :
    Correlation.largeDownload env db event = some none := by
  rw [Correlation.largeDownload,
    if_pos ⟨h.not_type (by decide), h.not_type (by decide)⟩]

theorem quiet_loginAfterFailures (h : IsFinding event) :
    Correlation.loginAfterFailures env db event = some none := by
  rw [Correlation.loginAfterFailures, if_pos (h.not_type (by decide))]

theorem orDefault_severity {severity : String} (h : severity ∈ severities) :
    Correlation.orDefault (some severity) "medium" = severity := by
  simp only [severities, List.mem_cons, List.not_mem_nil, or_false] at h
  rcases h with rfl | rfl | rfl | rfl
  · decide
  · decide
  · decide
  · decide

structure FindingResult (result : DetectionResult) : Prop where
  rule : result.ruleId = cloudFindingId ∨ result.ruleId = mlAnomalyId
  severity : result.severity ∈ severities

theorem result_cloudFinding (h : IsFinding event) {result : DetectionResult}
    (hresult : Correlation.cloudFinding env db event = some (some result)) :
    FindingResult result := by
  obtain ⟨severity, hmem, hseverity⟩ := h.severity
  unfold Correlation.cloudFinding at hresult
  split at hresult
  · cases hresult
  · cases hresult
    refine ⟨.inl rfl, ?_⟩
    simp only [hseverity, orDefault_severity hmem]
    exact hmem

theorem result_mlAnomaly {result : DetectionResult}
    (hresult : Correlation.mlAnomaly env db event = some (some result)) :
    FindingResult result := by
  obtain ⟨answer, _, hresult⟩ := Option.bind_eq_some_iff.mp hresult
  cases answer with
  | none => cases hresult
  | some anomaly =>
      simp only at hresult
      split at hresult
      · cases hresult
      · cases hresult
        have hmedium : "medium" ∈ severities := by decide
        exact ⟨.inr rfl, hmedium⟩

theorem answer_cloudFinding : ∃ answer, Correlation.cloudFinding env db event = some answer := by
  unfold Correlation.cloudFinding
  split
  · exact ⟨none, rfl⟩
  · exact ⟨_, rfl⟩

theorem answer_mlAnomaly (hscore : ∃ answer, env.scoreEvent db.events event = some answer) :
    ∃ answer, Correlation.mlAnomaly env db event = some answer := by
  obtain ⟨answer, hanswer⟩ := hscore
  unfold Correlation.mlAnomaly
  rw [hanswer]
  cases answer with
  | none => exact ⟨none, rfl⟩
  | some anomaly =>
      simp only [Option.bind_eq_bind, Option.bind_some]
      split
      · exact ⟨none, rfl⟩
      · exact ⟨_, rfl⟩

theorem evaluateEvent_finding (h : IsFinding event)
    (hscore : ∃ answer, env.scoreEvent db.events event = some answer) :
    ∃ results, Correlation.evaluateEvent env db event = some results ∧
      ∀ result ∈ results, FindingResult result := by
  have hanswers : ∀ rule ∈ Correlation.ruleRegistry, ∃ answer, rule env db event = some answer := by
    intro rule hrule
    simp only [Correlation.ruleRegistry, List.mem_cons, List.not_mem_nil, or_false] at hrule
    rcases hrule with rfl | rfl | rfl | rfl | rfl | rfl | rfl
    · exact ⟨none, quiet_bruteForce h⟩
    · exact ⟨none, quiet_passwordSpray h⟩
    · exact ⟨none, quiet_suspiciousPrivilegeChange h⟩
    · exact ⟨none, quiet_largeDownload h⟩
    · exact ⟨none, quiet_loginAfterFailures h⟩
    · exact answer_mlAnomaly hscore
    · exact answer_cloudFinding
  obtain ⟨answers, heval⟩ := Option.exists_mapM_iff.mpr hanswers
  refine ⟨answers.reduceOption, ?_, ?_⟩
  · rw [Correlation.evaluateEvent, heval]
    rfl
  · intro result hresult
    obtain ⟨rule, hrule, hf⟩ :=
      Option.mem_of_mapM heval (List.reduceOption_mem_iff.mp hresult)
    simp only [Correlation.ruleRegistry, List.mem_cons, List.not_mem_nil, or_false] at hrule
    rcases hrule with rfl | rfl | rfl | rfl | rfl | rfl | rfl
    · rw [quiet_bruteForce h] at hf
      cases hf
    · rw [quiet_passwordSpray h] at hf
      cases hf
    · rw [quiet_suspiciousPrivilegeChange h] at hf
      cases hf
    · rw [quiet_largeDownload h] at hf
      cases hf
    · rw [quiet_loginAfterFailures h] at hf
      cases hf
    · exact result_mlAnomaly hf
    · exact result_cloudFinding h hf

end Rules

section Correlating

variable {env : Env} {db : Database} {alert : Alert}

structure Correlatable (db : Database) (alert : Alert) : Prop where
  stored : alert ∈ db.alerts
  event : ∃ event ∈ db.events, event.id = alert.eventId
  rule : alert.ruleId = cloudFindingId ∨ alert.ruleId = mlAnomalyId
  early : alert.ruleId = cloudFindingId → minimum + Correlation.days 90 ≤ alert.firstSeen ∧
    alert.firstSeen ≤ maximum
  late : alert.ruleId = cloudFindingId → minimum ≤ alert.lastSeen ∧
    alert.lastSeen + Correlation.seconds 1 ≤ maximum

theorem correlateInRange_succeeds (hsound : Scored db) (h : Correlatable db alert) :
    ∃ db', correlateInRange env db alert = some db' ∧ db'.events = db.events ∧
      db'.alerts = db.alerts := by
  have hsome : ∃ db', correlateInRange env db alert = some db' := by
    rw [correlateInRange]
    split
    · rename_i hrule
      have hearly := h.early hrule
      have hlate := h.late hrule
      simp only [Correlation.days, Correlation.seconds] at hearly hlate
      have hsince : ∃ since, subtractSeconds alert.firstSeen (90 * 86400) = some since :=
        (Events.subtractSeconds_iff (by omega)).mpr ⟨by lia, by lia⟩
      have htil : ∃ til, subtractSeconds alert.lastSeen (-1) = some til :=
        (Events.subtractSeconds_iff (by omega)).mpr ⟨by lia, by lia⟩
      obtain ⟨since, hsince⟩ := hsince
      obtain ⟨til, htil⟩ := htil
      rw [hsince, htil, Correlation.correlateAlert, if_pos hrule]
      exact Correlation.total_correlateCloudFinding h.stored hsound h.event
    · rename_i hother
      have hrule : alert.ruleId = mlAnomalyId := h.rule.resolve_left hother
      have hallowed : mlAnomalyId ∉ Correlation.allowedRules := by decide
      exact ⟨db, by rw [Correlation.correlateAlert, if_neg hother, hrule, if_pos hallowed]⟩
  obtain ⟨db', hdb'⟩ := hsome
  have halert : Correlation.correlateAlert env.toEnv db alert = some db' := by
    rw [correlateInRange] at hdb'
    split at hdb'
    · obtain ⟨_, _, hdb'⟩ := Option.bind_eq_some_iff.mp hdb'
      obtain ⟨_, _, hdb'⟩ := Option.bind_eq_some_iff.mp hdb'
      exact hdb'
    · exact hdb'
  exact ⟨db', hdb', Correlation.correlateAlert_frame halert⟩

theorem correlateAll_succeeds {alerts : List Alert} (hsound : Scored db)
    (h : ∀ alert ∈ alerts, Correlatable db alert) :
    ∃ db', alerts.foldlM (correlateInRange env) db = some db' ∧ db'.events = db.events ∧
      db'.alerts = db.alerts := by
  induction alerts generalizing db with
  | nil => exact ⟨db, rfl, rfl, rfl⟩
  | cons alert alerts ih =>
      obtain ⟨hfirst, hrest⟩ := List.forall_mem_cons.mp h
      have hstep : ∃ db1, correlateInRange env db alert = some db1 ∧ db1.events = db.events ∧
          db1.alerts = db.alerts := correlateInRange_succeeds hsound hfirst
      obtain ⟨db1, h1, hevents, halerts⟩ := hstep
      have hkept : ∀ item ∈ alerts, Correlatable db1 item := by
        intro item hitem
        obtain ⟨hstored, hevent, hrule, hearly, hlate⟩ := hrest item hitem
        exact ⟨halerts ▸ hstored, hevents ▸ hevent, hrule, hearly, hlate⟩
      have hsound1 : Scored db1 := by
        rw [Scored, halerts]
        exact hsound
      obtain ⟨db2, h2, hevents2, halerts2⟩ := ih hsound1 hkept
      refine ⟨db2, ?_, hevents2.trans hevents, halerts2.trans halerts⟩
      rw [List.foldlM_cons, h1]
      exact h2

end Correlating

section Storing

def Storable (event : FindingEvent) : Prop :=
  minimum + Correlation.days 90 ≤ Events.utc event.toEventCreate ∧
    Events.utc event.toEventCreate + Correlation.seconds 1 ≤ maximum ∧
    ∀ row ∈ normalizeFinding event, refused row = false

instance (event : FindingEvent) : Decidable (Storable event) :=
  inferInstanceAs (Decidable (_ ∧ _ ∧ _))

def Adapted (env : Env) (event : FindingEvent) : Prop :=
  ∃ identity timestamp aware finding resource data kind,
    event = findingEvent env identity timestamp aware finding resource data kind

variable {env : Env} {db : Database} {event : FindingEvent} {row : FindingRow}

theorem eventId_ne_empty (env : Env) (identity : Identity) : eventId env identity ≠ "" := by
  intro h
  have hlist := congrArg String.toList h
  rw [eventId, String.toList_append] at hlist
  cases (List.append_eq_nil_iff.mp hlist).1

theorem orDefault_eventId (env : Env) (identity : Identity) (default : String) :
    Correlation.orDefault (some (eventId env identity)) default = eventId env identity := by
  simp only [Correlation.orDefault, if_neg (eventId_ne_empty env identity)]

structure RowOf (env : Env) (event : FindingEvent) (row : FindingRow) : Prop where
  finding : ∀ id, IsFinding (Correlation.normalizeEvent env.toEnv id row.toEventCreate)
  eventId : ∀ id, some (Correlation.normalizeEvent env.toEnv id row.toEventCreate).eventId =
    event.eventId
  timestamp : row.timestamp = Events.utc event.toEventCreate

theorem normalizeFinding_rowOf (h : Adapted env event) (hrow : normalizeFinding event = some row) :
    RowOf env event row := by
  obtain ⟨identity, timestamp, aware, finding, resource, data, kind, rfl⟩ := h
  obtain ⟨normalized, hnormalized, rfl⟩ := Option.map_eq_some_iff.mp hrow
  obtain ⟨moment, hmoment, rfl⟩ := Option.map_eq_some_iff.mp hnormalized
  refine ⟨fun id => ⟨rfl, ?_, _, severityOf_mem env data, rfl⟩, fun id => ?_,
    (Events.normalizeTimestamp_eq_some.mp hmoment).2.2⟩
  · have htype : eventTypeOf env kind = "s3_public_exposure" ∨
        eventTypeOf env kind = "cloud_finding" := by
      rw [eventTypeOf]
      split
      · exact .inl rfl
      · exact .inr rfl
    exact htype
  · simp only [Correlation.normalizeEvent]
    exact congrArg some (orDefault_eventId env identity _)

def Scores (env : Env) : Prop :=
  ∀ (events : List Correlation.Event) (event : Correlation.Event),
    minimum + Correlation.days 90 ≤ event.timestamp →
      ∃ answer, env.scoreEvent events event = some answer

structure Stored (db : Database) (event : FindingEvent) (db' : Database) : Prop where
  sound : Scored db'
  ids : storedIds db' = storedIds db ++ [event.eventId]

theorem result_of_buildAlerts {cenv : Correlation.Env} {stored : Correlation.Event}
    {results : List DetectionResult} {id : Permissions.Uuid}
    (h : ∀ result ∈ results, FindingResult result) :
    ∀ alert ∈ Correlation.buildAlerts cenv stored id results,
      (alert.ruleId = cloudFindingId ∨ alert.ruleId = mlAnomalyId) ∧
        alert.severity ∈ severities := by
  induction results generalizing id with
  | nil => exact fun alert halert => absurd halert List.not_mem_nil
  | cons result results ih =>
      obtain ⟨hfirst, hrest⟩ := List.forall_mem_cons.mp h
      intro alert halert
      rcases List.mem_cons.mp halert with rfl | halert
      · exact ⟨hfirst.rule, hfirst.severity⟩
      · exact ih hrest alert halert

theorem runDetection_eq {cenv : Correlation.Env} {payload : Correlation.EventCreate}
    {stored : Correlation.Event} {db1 : Database} {results : List DetectionResult}
    (h1 : db.createEvent stored = some db1)
    (hresults : Correlation.evaluateEvent cenv db1 stored = some results)
    (hstored : Correlation.normalizeEvent cenv db.nextId payload = stored) :
    Correlation.runDetection cenv db payload =
      some (db1.createAlerts (Correlation.buildAlerts cenv stored db1.nextId results),
        Correlation.buildAlerts cenv stored db1.nextId results) := by
  unfold Correlation.runDetection
  simp only [hstored, h1, hresults, Option.bind_eq_bind, Option.bind_some]

theorem runDetection_succeeds (hscores : Scores env) (hrow : RowOf env event row)
    (hearly : minimum + Correlation.days 90 ≤ row.timestamp)
    (hfresh : event.eventId ∉ storedIds db) :
    ∃ db' alerts,
      Correlation.runDetection env.toEnv db row.toEventCreate = some (db', alerts) ∧
        ∀ alert ∈ alerts, (alert.ruleId = cloudFindingId ∨ alert.ruleId = mlAnomalyId) ∧
          alert.severity ∈ severities := by
  have hnew : (Correlation.normalizeEvent env.toEnv db.nextId row.toEventCreate).eventId ∉
      db.events.map (·.eventId) := by
    intro hmem
    obtain ⟨old, hold, heq⟩ := List.mem_map.mp hmem
    refine hfresh (List.mem_map.mpr ⟨old, hold, ?_⟩)
    rw [heq]
    exact hrow.eventId db.nextId
  obtain ⟨db1, h1⟩ : ∃ db1, db.createEvent (Correlation.normalizeEvent env.toEnv db.nextId
      row.toEventCreate) = some db1 := ⟨_, if_neg hnew⟩
  have hscore : ∃ answer, env.scoreEvent db1.events (Correlation.normalizeEvent env.toEnv
      db.nextId row.toEventCreate) = some answer := hscores db1.events _ hearly
  obtain ⟨results, hresults, hfindings⟩ := evaluateEvent_finding (hrow.finding db.nextId) hscore
  exact ⟨_, _, runDetection_eq h1 hresults rfl, result_of_buildAlerts hfindings⟩

theorem ingestFinding_succeeds (hsound : Scored db) (hscores : Scores env)
    (hadapted : Adapted env event) (hstorable : Storable event)
    (hrow : normalizeFinding event = some row) (hfresh : event.eventId ∉ storedIds db) :
    ∃ db', ingestFinding env db row = some db' ∧ Stored db event db' := by
  obtain ⟨hearly, hlate, htexts⟩ := hstorable
  have hrowOf := normalizeFinding_rowOf hadapted hrow
  rw [← hrowOf.timestamp] at hearly hlate
  obtain ⟨db1, alerts, hdetect, hresults⟩ :=
    runDetection_succeeds hscores hrowOf hearly hfresh
  have hdetected := Correlation.runDetection_cases hdetect
  have hsound1 : Scored db1 := by
    intro alert halert
    rw [hdetected.stored] at halert
    rcases List.mem_append.mp halert with hold | hnew
    · exact hsound alert hold
    · exact (hresults alert hnew).2
  have hcorrelatable : ∀ alert ∈ alerts, Correlatable db1 alert := by
    intro alert halert
    have hraised := hdetected.raised alert halert
    refine ⟨?_, ⟨_, ?_, hraised.eventId.symm⟩, (hresults alert halert).1, ?_, ?_⟩
    · rw [hdetected.stored]
      exact List.mem_append_right _ halert
    · rw [hdetected.events]
      exact List.mem_append_right _ List.mem_cons_self
    · intro hrule
      have htime : alert.firstSeen = row.timestamp := (hraised.finding hrule).1
      simp only [Correlation.days, Correlation.seconds] at *
      rw [htime]
      lia
    · intro hrule
      have htime : alert.lastSeen = row.timestamp := (hraised.finding hrule).2
      simp only [Correlation.days, Correlation.seconds] at *
      rw [htime]
      lia
  obtain ⟨db2, hcorrelate, hevents, halerts⟩ := correlateAll_succeeds hsound1 hcorrelatable
  refine ⟨db2, ?_, ?_, ?_⟩
  · rw [ingestFinding, htexts row hrow, hdetect]
    exact hcorrelate
  · rw [Scored, halerts]
    exact hsound1
  · rw [storedIds, hevents, hdetected.events, List.map_append, List.map_singleton,
      hrowOf.eventId]
    rfl

theorem ingestAll_succeeds {events : List FindingEvent} {rows : List FindingRow}
    (hsound : Scored db) (hscores : Scores env)
    (hrows : List.Forall₂ (fun event row => normalizeFinding event = some row) events rows)
    (hadapted : ∀ event ∈ events, Adapted env event)
    (hstorable : ∀ event ∈ events, Storable event)
    (hnodup : (events.map (·.eventId)).Nodup)
    (hfresh : ∀ event ∈ events, event.eventId ∉ storedIds db) :
    ∃ db', rows.foldlM (ingestFinding env) db = some db' ∧ Scored db' ∧
      storedIds db' = storedIds db ++ events.map (·.eventId) := by
  induction hrows generalizing db with
  | nil => exact ⟨db, rfl, hsound, (List.append_nil _).symm⟩
  | @cons event row events rows hrow _ ih =>
      obtain ⟨hnew, hdistinct⟩ := List.nodup_cons.mp hnodup
      obtain ⟨hfirst, hrest⟩ := List.forall_mem_cons.mp hfresh
      obtain ⟨hadapt, hadapts⟩ := List.forall_mem_cons.mp hadapted
      obtain ⟨hstore, hstores⟩ := List.forall_mem_cons.mp hstorable
      obtain ⟨db1, h1, hsound1, hids1⟩ :=
        ingestFinding_succeeds hsound hscores hadapt hstore hrow hfirst
      have hfresh1 : ∀ other ∈ events, other.eventId ∉ storedIds db1 := by
        intro other hother hmem
        rw [hids1] at hmem
        rcases List.mem_append.mp hmem with hold | hlast
        · exact hrest other hother hold
        · refine hnew (List.mem_map.mpr ⟨other, hother, ?_⟩)
          exact List.mem_singleton.mp hlast
      obtain ⟨db2, h2, hsound2, hids2⟩ := ih hsound1 hadapts hstores hdistinct hfresh1
      refine ⟨db2, ?_, hsound2, ?_⟩
      · rw [List.foldlM_cons, h1]
        exact h2
      · rw [hids2, hids1, List.append_assoc]
        rfl

theorem createEventsBulk_succeeds {events : List FindingEvent} (hsound : Scored db)
    (hscores : Scores env) (hadapted : ∀ event ∈ events, Adapted env event)
    (hstorable : ∀ event ∈ events, Storable event)
    (hnodup : (events.map (·.eventId)).Nodup)
    (hfresh : ∀ event ∈ events, event.eventId ∉ storedIds db) :
    ∃ db', createEventsBulk env db events = some db' ∧ Scored db' ∧
      storedIds db' = storedIds db ++ events.map (·.eventId) := by
  have hnormal : ∀ event ∈ events, ∃ row, normalizeFinding event = some row := by
    intro event hevent
    obtain ⟨hearly, hlate, _⟩ := hstorable event hevent
    simp only [Correlation.days, Correlation.seconds] at hearly hlate
    have hmoment : Events.normalizeTimestamp event.timestamp =
        some (Events.utc event.toEventCreate) :=
      Events.normalizeTimestamp_eq_some.mpr ⟨by lia, by lia, rfl⟩
    rw [normalizeFinding, Events.normalize, hmoment]
    exact ⟨_, rfl⟩
  obtain ⟨rows, hrows⟩ := Option.exists_mapM_iff.mpr hnormal
  obtain ⟨db', hfold, hsound', hids⟩ :=
    ingestAll_succeeds hsound hscores (Option.mapM_eq_some_iff.mp hrows) hadapted hstorable hnodup hfresh
  refine ⟨db', ?_, hsound', hids⟩
  rw [createEventsBulk, hrows]
  exact hfold

end Storing

end Findings

import AiSoc.Correlation.Ingestion
import AiSoc.Correlation.Reachable

namespace Correlation

open Permissions (Uuid Timestamp)
open PyJson Database Query

def restamp (stamp : Alert → Timestamp) (alert : Alert) : Alert :=
  { alert with createdAt := stamp alert }

def Database.restamp (stamp : Alert → Timestamp) (db : Database) : Database :=
  { db with alerts := db.alerts.map (Correlation.restamp stamp) }

def Env.withClock (env : Env) (clock : Uuid → Timestamp) : Env :=
  { env with clock }

def Ordered (stamp : Alert → Timestamp) (alerts : List Alert) : Prop :=
  ∀ a ∈ alerts, ∀ b ∈ alerts, alertBefore a b ↔ alertBefore (restamp stamp a) (restamp stamp b)

section Alerts

theorem map_restamp {β : Type} (stamp : Alert → Timestamp) (f : Alert → β)
    (hf : ∀ alert, f (restamp stamp alert) = f alert) (alerts : List Alert) :
    (alerts.map (restamp stamp)).map f = alerts.map f := by
  rw [List.map_map]
  exact List.map_congr_left fun alert _ => hf alert

theorem filter_restamp (stamp : Alert → Timestamp) (p : Alert → Bool)
    (hp : ∀ alert, p (restamp stamp alert) = p alert) (alerts : List Alert) :
    (alerts.map (restamp stamp)).filter p = (alerts.filter p).map (restamp stamp) := by
  have hcomp : p ∘ restamp stamp = p := funext hp
  rw [List.filter_map, hcomp]

variable {stamp : Alert → Timestamp}

theorem ruleIds_restamp (alerts : List Alert) :
    (alerts.map (restamp stamp)).map (·.ruleId) = alerts.map (·.ruleId) :=
  map_restamp stamp _ (fun _ => rfl) alerts

theorem candidates_restamp (alerts : List Alert) :
    credentialCompromiseCandidates (alerts.map (restamp stamp)) =
      (credentialCompromiseCandidates alerts).map (restamp stamp) := by
  have hfilter := filter_restamp stamp (fun alert => alert.ruleId ∈ allowedRules) (fun _ => rfl) alerts
  unfold credentialCompromiseCandidates
  rw [ruleIds_restamp, hfilter]
  simp only
  split <;> rfl

theorem selectPrimary_restamp (stamp : Alert → Timestamp) (rules : List String)
    (value : Alert → Option String)
    (hvalue : ∀ alert, value (restamp stamp alert) = value alert) (alerts : List Alert) :
    selectPrimary rules value (alerts.map (restamp stamp)) = selectPrimary rules value alerts := by
  have hrule : ∀ rule, ((alerts.map (restamp stamp)).filter fun alert => alert.ruleId = rule).map
      value = (alerts.filter fun alert => alert.ruleId = rule).map value := by
    intro rule
    have hfilter := filter_restamp stamp (fun alert => alert.ruleId = rule) (fun _ => rfl) alerts
    rw [hfilter, map_restamp stamp value hvalue]
  unfold selectPrimary
  simp only [hrule, map_restamp stamp value hvalue]

theorem score_restamp (env : Env) (alerts : List Alert) :
    score env (alerts.map (restamp stamp)) = score env alerts := by
  have hweights := map_restamp stamp (fun alert => severityWeight env.settings alert.severity)
    (fun _ => rfl) alerts
  have hconfidences := map_restamp stamp (fun alert => alert.confidence) (fun _ => rfl) alerts
  unfold score
  simp only [List.isEmpty_map, hweights, hconfidences, ruleIds_restamp]

theorem timelineEntries_restamp (eventsById : Uuid → Option Investigation.EventRow)
    (seen : List String) (alerts : List Alert) :
    timelineEntries eventsById seen (alerts.map (restamp stamp)) =
      timelineEntries eventsById seen alerts := by
  induction alerts generalizing seen with
  | nil => rfl
  | cons alert alerts ih =>
      have hid : (restamp stamp alert).eventId = alert.eventId := rfl
      rw [List.map_cons, timelineEntries, timelineEntries, hid]
      split
      · simp only [ih]
        rfl
      · rw [ih]
        rfl

theorem timeline_restamp {alerts : List Alert} (h : Ordered stamp alerts)
    (eventsById : Uuid → Option Investigation.EventRow) :
    buildIncidentTimeline (alerts.map (restamp stamp)) eventsById =
      buildIncidentTimeline alerts eventsById := by
  unfold buildIncidentTimeline
  rw [← List.map_insertionSort alertBefore alertBefore (restamp stamp) alerts h,
    timelineEntries_restamp]

end Alerts

section Correlating

variable {env : Env} {stamp : Alert → Timestamp} {db : Database}

theorem relatedAlerts_restamp (hscan : env.scan.Natural) (h : Ordered stamp db.alerts)
    (username sourceIp : Option String) (since til : Timestamp) :
    (db.restamp stamp).relatedAlerts env username sourceIp since til =
      (db.relatedAlerts env username sourceIp since til).map (restamp stamp) :=
  select_map hscan (fun _ => rfl) h

theorem alertsForIncident_restamp (hscan : env.scan.Natural) (h : Ordered stamp db.alerts)
    (incidentId : Uuid) : (db.restamp stamp).alertsForIncident env incidentId =
      (db.alertsForIncident env incidentId).map (restamp stamp) :=
  select_map hscan (fun _ => rfl) h

theorem relatedWith_restamp (hscan : env.scan.Natural) (h : Ordered stamp db.alerts)
    (alert : Alert) : relatedWith env (db.restamp stamp) (restamp stamp alert) =
      (relatedWith env db alert).map (restamp stamp) := by
  have hrelated : (db.restamp stamp).relatedAlerts env (restamp stamp alert).username
      (restamp stamp alert).sourceIp (lookback env (restamp stamp alert))
      (restamp stamp alert).lastSeen = _ :=
    relatedAlerts_restamp hscan h alert.username alert.sourceIp (lookback env alert) alert.lastSeen
  have hids : (restamp stamp alert).id = alert.id := rfl
  unfold relatedWith
  rw [hrelated]
  simp only [hids, map_restamp stamp (·.id) fun _ => rfl]
  split
  · rfl
  · rw [List.map_append]
    rfl

theorem candidateAlerts_restamp (hscan : env.scan.Natural) (h : Ordered stamp db.alerts)
    (alert : Alert) : candidateAlerts env (db.restamp stamp) (restamp stamp alert) =
      (candidateAlerts env db alert).map (restamp stamp) := by
  rw [candidateAlerts, relatedWith_restamp hscan h, candidates_restamp, candidateAlerts]

theorem incidentTimeline_restamp {linked : List Alert} (h : Ordered stamp linked) :
    incidentTimeline (db.restamp stamp) (linked.map (restamp stamp)) = incidentTimeline db linked := by
  unfold incidentTimeline
  rw [timeline_restamp h, map_restamp stamp (·.eventId) fun _ => rfl]
  rfl

theorem ordered_linked (env : Env) (h : Ordered stamp db.alerts) (incidentId : Uuid) :
    Ordered stamp (db.alertsForIncident env incidentId) := by
  intro a ha b hb
  exact h a (mem_select.1 ha).1 b (mem_select.1 hb).1

def refreshed (env : Env) (db : Database) (correlationKey : String)
    (username sourceIp : Option String) (alertIds : List Uuid) (incident : Incident) :
    Option Database := do
  let db := db.addAlertLinks incident.id alertIds
  let linked := db.alertsForIncident env incident.id
  let firstSeen ← (linked.map (·.firstSeen)).min?
  let lastSeen ← (linked.map (·.lastSeen)).max?
  some (db.updateIncident (refreshCredential env db correlationKey username sourceIp linked
    firstSeen lastSeen incident))

theorem refreshed_restamp (hscan : env.scan.Natural) (h : Ordered stamp db.alerts)
    (correlationKey : String) (username sourceIp : Option String) (alertIds : List Uuid)
    (incident : Incident) :
    refreshed env (db.restamp stamp) correlationKey username sourceIp alertIds incident =
      (refreshed env db correlationKey username sourceIp alertIds incident).map
        (Database.restamp stamp) := by
  have hdb : (db.restamp stamp).addAlertLinks incident.id alertIds =
      (db.addAlertLinks incident.id alertIds).restamp stamp := rfl
  have hordered : Ordered stamp (db.addAlertLinks incident.id alertIds).alerts := h
  unfold refreshed
  simp only [hdb]
  obtain ⟨linkedDb, hlinkedDb⟩ : ∃ d, d = db.addAlertLinks incident.id alertIds := ⟨_, rfl⟩
  rw [← hlinkedDb] at hordered ⊢
  have hlinked := alertsForIncident_restamp hscan hordered incident.id
  have htimeline : incidentTimeline (linkedDb.restamp stamp) _ = _ :=
    incidentTimeline_restamp (ordered_linked env hordered incident.id)
  rw [hlinked, map_restamp stamp (·.firstSeen) fun _ => rfl, map_restamp stamp (·.lastSeen) fun _ => rfl]
  cases hfirst : ((linkedDb.alertsForIncident env incident.id).map (·.firstSeen)).min? with
  | none => rfl
  | some firstSeen =>
      cases hlast : ((linkedDb.alertsForIncident env incident.id).map (·.lastSeen)).max? with
      | none => rfl
      | some lastSeen =>
          simp only [Option.bind_eq_bind, Option.bind_some, Option.map_some, refreshCredential,
            htimeline, score_restamp]
          rfl

def opened (env : Env) (db : Database) (alert : Alert) (username sourceIp : Option String)
    (candidates : List Alert) : Option (Database × Incident) :=
  match db.findOpenRelatedIncident env (buildCorrelationKey env.text username sourceIp) username
      sourceIp (mergeSince env alert) alert.lastSeen with
  | some incident => some (db, incident)
  | none => do
      let firstSeen ← (candidates.map fun item => item.firstSeen).min?
      let lastSeen ← (candidates.map fun item => item.lastSeen).max?
      some (db.createIncident (credentialIncident
        (buildCorrelationKey env.text username sourceIp) username sourceIp firstSeen lastSeen))

theorem correlateCandidates_eq (alert : Alert) (candidates : List Alert)
    {username sourceIp : Option String} (husername : selectPrimaryUsername candidates = username)
    (hsourceIp : selectPrimarySourceIp candidates = sourceIp) :
    correlateCandidates env db alert candidates =
      (opened env db alert username sourceIp candidates).bind fun p =>
        refreshed env p.1 (buildCorrelationKey env.text username sourceIp) username sourceIp
          (candidates.map fun item => item.id) p.2 := by
  subst husername
  subst hsourceIp
  unfold correlateCandidates opened
  simp only
  cases db.findOpenRelatedIncident env
      (buildCorrelationKey env.text (selectPrimaryUsername candidates)
        (selectPrimarySourceIp candidates))
      (selectPrimaryUsername candidates) (selectPrimarySourceIp candidates) (mergeSince env alert)
      alert.lastSeen with
  | some incident => rfl
  | none =>
      cases (candidates.map fun item => item.firstSeen).min? with
      | none => rfl
      | some firstSeen =>
          cases (candidates.map fun item => item.lastSeen).max? with
          | none => rfl
          | some lastSeen => rfl

theorem opened_restamp (alert : Alert) (username sourceIp : Option String)
    (candidates : List Alert) :
    opened env (db.restamp stamp) (restamp stamp alert) username sourceIp
        (candidates.map (restamp stamp)) =
      (opened env db alert username sourceIp candidates).map fun p =>
        (p.1.restamp stamp, p.2) := by
  have hfirst := map_restamp stamp (fun item => item.firstSeen) (fun _ => rfl) candidates
  have hlast := map_restamp stamp (fun item => item.lastSeen) (fun _ => rfl) candidates
  have hfound : (db.restamp stamp).findOpenRelatedIncident env
      (buildCorrelationKey env.text username sourceIp) username sourceIp
      (mergeSince env (restamp stamp alert)) (restamp stamp alert).lastSeen =
      db.findOpenRelatedIncident env (buildCorrelationKey env.text username sourceIp) username
        sourceIp (mergeSince env alert) alert.lastSeen := rfl
  unfold opened
  rw [hfound, hfirst, hlast]
  cases db.findOpenRelatedIncident env (buildCorrelationKey env.text username sourceIp) username
      sourceIp (mergeSince env alert) alert.lastSeen with
  | some incident => rfl
  | none =>
      cases (candidates.map fun item => item.firstSeen).min? with
      | none => rfl
      | some firstSeen =>
          cases (candidates.map fun item => item.lastSeen).max? with
          | none => rfl
          | some lastSeen => rfl

theorem alerts_of_opened {alert : Alert} {username sourceIp : Option String}
    {candidates : List Alert} {p : Database × Incident}
    (h : opened env db alert username sourceIp candidates = some p) : p.1.alerts = db.alerts := by
  unfold opened at h
  split at h
  · cases h
    rfl
  · obtain ⟨firstSeen, _, h⟩ := Option.bind_eq_some_iff.1 h
    obtain ⟨lastSeen, _, h⟩ := Option.bind_eq_some_iff.1 h
    cases h
    rfl

theorem correlateCandidates_restamp (hscan : env.scan.Natural) (h : Ordered stamp db.alerts)
    (alert : Alert) (candidates : List Alert) :
    correlateCandidates env (db.restamp stamp) (restamp stamp alert)
        (candidates.map (restamp stamp)) =
      (correlateCandidates env db alert candidates).map (Database.restamp stamp) := by
  have husername : selectPrimaryUsername (candidates.map (restamp stamp)) =
      selectPrimaryUsername candidates := selectPrimary_restamp stamp _ _ (fun _ => rfl) candidates
  have hsourceIp : selectPrimarySourceIp (candidates.map (restamp stamp)) =
      selectPrimarySourceIp candidates := selectPrimary_restamp stamp _ _ (fun _ => rfl) candidates
  have hids := map_restamp stamp (fun item => item.id) (fun _ => rfl) candidates
  rw [correlateCandidates_eq _ _ husername hsourceIp, correlateCandidates_eq _ _ rfl rfl,
    opened_restamp, hids]
  cases hopened : opened env db alert (selectPrimaryUsername candidates)
      (selectPrimarySourceIp candidates) candidates with
  | none => rfl
  | some p =>
      have halerts := alerts_of_opened hopened
      exact refreshed_restamp hscan (halerts ▸ h) _ _ _ _ p.2

def findingOpened (env : Env) (db : Database) (alert : Alert) (correlationKey : String) :
    Option (Database × Incident) :=
  match db.findOpenRelatedIncident env correlationKey none none (findingSince alert)
      (findingUntil alert) with
  | some incident => some (db, incident)
  | none => do
      let riskScore ← findingScores.lookup alert.severity
      some (db.createIncident (findingIncident alert correlationKey riskScore))

def findingRefreshed (env : Env) (db : Database) (alertId : Uuid) (incident : Incident) :
    Option Database := do
  let db := db.addAlertLinks incident.id [alertId]
  let linked := db.alertsForIncident env incident.id
  let severityScores ← linked.mapM fun item => findingScores.lookup item.severity
  let topScore ← severityScores.max?
  let lastSeen ← (linked.map fun item => item.lastSeen).max?
  some (db.updateIncident (refreshFinding env db linked topScore lastSeen incident))

theorem correlateCloudFinding_eq (alert : Alert) :
    correlateCloudFinding env db alert =
      (db.getByIds [alert.eventId] alert.eventId).bind fun event =>
        (findingOpened env db alert (eventFindingKey env event)).bind fun p =>
          findingRefreshed env p.1 alert.id p.2 := by
  unfold correlateCloudFinding findingOpened
  cases db.getByIds [alert.eventId] alert.eventId with
  | none => rfl
  | some event =>
      simp only [Option.bind_eq_bind, Option.bind_some]
      cases db.findOpenRelatedIncident env (eventFindingKey env event) none none
          (findingSince alert) (findingUntil alert) with
      | some incident => rfl
      | none =>
          cases findingScores.lookup alert.severity with
          | none => rfl
          | some riskScore => rfl

theorem findingOpened_restamp (alert : Alert) (correlationKey : String) :
    findingOpened env (db.restamp stamp) (restamp stamp alert) correlationKey =
      (findingOpened env db alert correlationKey).map fun p => (p.1.restamp stamp, p.2) := by
  have hfound : (db.restamp stamp).findOpenRelatedIncident env correlationKey none none
      (findingSince (restamp stamp alert)) (findingUntil (restamp stamp alert)) =
      db.findOpenRelatedIncident env correlationKey none none (findingSince alert)
        (findingUntil alert) := rfl
  have hscore : findingScores.lookup (restamp stamp alert).severity =
      findingScores.lookup alert.severity := rfl
  unfold findingOpened
  rw [hfound, hscore]
  cases db.findOpenRelatedIncident env correlationKey none none (findingSince alert)
      (findingUntil alert) with
  | some incident => rfl
  | none =>
      cases findingScores.lookup alert.severity with
      | none => rfl
      | some riskScore => rfl

theorem alerts_of_findingOpened {alert : Alert} {correlationKey : String}
    {p : Database × Incident} (h : findingOpened env db alert correlationKey = some p) :
    p.1.alerts = db.alerts := by
  unfold findingOpened at h
  split at h
  · cases h
    rfl
  · obtain ⟨riskScore, _, h⟩ := Option.bind_eq_some_iff.1 h
    cases h
    rfl

theorem findingRefreshed_restamp (hscan : env.scan.Natural) (h : Ordered stamp db.alerts)
    (alertId : Uuid) (incident : Incident) :
    findingRefreshed env (db.restamp stamp) alertId incident =
      (findingRefreshed env db alertId incident).map (Database.restamp stamp) := by
  have hdb : (db.restamp stamp).addAlertLinks incident.id [alertId] =
      (db.addAlertLinks incident.id [alertId]).restamp stamp := rfl
  have hordered : Ordered stamp (db.addAlertLinks incident.id [alertId]).alerts := h
  unfold findingRefreshed
  simp only [hdb]
  obtain ⟨linkedDb, hlinkedDb⟩ : ∃ d, d = db.addAlertLinks incident.id [alertId] := ⟨_, rfl⟩
  rw [← hlinkedDb] at hordered ⊢
  have hlinked := alertsForIncident_restamp hscan hordered incident.id
  have htimeline : incidentTimeline (linkedDb.restamp stamp) _ = _ :=
    incidentTimeline_restamp (ordered_linked env hordered incident.id)
  have hlast := map_restamp stamp (fun item => item.lastSeen) (fun _ => rfl)
    (linkedDb.alertsForIncident env incident.id)
  have hscores : ((linkedDb.alertsForIncident env incident.id).map (restamp stamp)).mapM
      (fun item => findingScores.lookup item.severity) =
      (linkedDb.alertsForIncident env incident.id).mapM
        fun item => findingScores.lookup item.severity := by
    rw [List.mapM_map]
    rfl
  rw [hlinked, hlast, hscores]
  cases (linkedDb.alertsForIncident env incident.id).mapM
      fun item => findingScores.lookup item.severity with
  | none => rfl
  | some severityScores =>
      simp only [Option.bind_eq_bind, Option.bind_some]
      cases severityScores.max? with
      | none => rfl
      | some topScore =>
          cases ((linkedDb.alertsForIncident env incident.id).map fun item => item.lastSeen).max? with
          | none => rfl
          | some lastSeen =>
              simp only [Option.bind_some, Option.map_some, refreshFinding, htimeline, score_restamp]
              rfl

theorem correlateCloudFinding_restamp (hscan : env.scan.Natural) (h : Ordered stamp db.alerts)
    (alert : Alert) : correlateCloudFinding env (db.restamp stamp) (restamp stamp alert) =
      (correlateCloudFinding env db alert).map (Database.restamp stamp) := by
  have hevent : (db.restamp stamp).getByIds [(restamp stamp alert).eventId]
      (restamp stamp alert).eventId = db.getByIds [alert.eventId] alert.eventId := rfl
  rw [correlateCloudFinding_eq, correlateCloudFinding_eq, hevent]
  cases db.getByIds [alert.eventId] alert.eventId with
  | none => rfl
  | some event =>
      simp only [Option.bind_some]
      rw [findingOpened_restamp]
      cases hopened : findingOpened env db alert (eventFindingKey env event) with
      | none => rfl
      | some p =>
          have halerts := alerts_of_findingOpened hopened
          exact findingRefreshed_restamp hscan (halerts ▸ h) alert.id p.2

theorem correlateAlert_restamp (hscan : env.scan.Natural) (h : Ordered stamp db.alerts)
    (alert : Alert) : correlateAlert env (db.restamp stamp) (restamp stamp alert) =
      (correlateAlert env db alert).map (Database.restamp stamp) := by
  have hrule : (restamp stamp alert).ruleId = alert.ruleId := rfl
  unfold correlateAlert
  rw [hrule, candidateAlerts_restamp hscan h, correlateCloudFinding_restamp hscan h]
  split
  · rfl
  · split
    · rfl
    · cases hcandidates : candidateAlerts env db alert with
      | nil => rfl
      | cons candidate candidates =>
          exact correlateCandidates_restamp hscan h alert (candidate :: candidates)

theorem correlate_restamp (hscan : env.scan.Natural) (alerts : List Alert)
    (h : Ordered stamp db.alerts) :
    correlate env (db.restamp stamp) (alerts.map (restamp stamp)) =
      (correlate env db alerts).map (Database.restamp stamp) := by
  induction alerts generalizing db with
  | nil => rfl
  | cons alert alerts ih =>
      have hfirst := correlateAlert_restamp hscan h alert
      unfold correlate at ih ⊢
      rw [List.map_cons, List.foldlM_cons, List.foldlM_cons, hfirst]
      cases halert : correlateAlert env db alert with
      | none => rfl
      | some db' => exact ih ((correlateAlert_frame halert).2 ▸ h)

end Correlating

end Correlation

import AiSoc.Correlation.Service

namespace Correlation

open Permissions (Uuid Timestamp)
open PyJson PyStr Database Query

section Lookups

def Selected (p : Incident → Bool) (db : Database) (row : Incident) : Prop :=
  row ∈ db.incidents ∧ p row = true ∧
    ∀ other ∈ db.incidents, p other = true → other.lastSeen ≤ row.lastSeen

instance decidableForallSelected (p : Incident → Bool) (db : Database) (Q : Incident → Prop)
    [DecidablePred Q] : Decidable (∀ row, Selected p db row → Q row) :=
  decidable_of_iff (∀ row ∈ db.incidents, p row = true →
      (∀ other ∈ db.incidents, p other = true → other.lastSeen ≤ row.lastSeen) → Q row) (by
    constructor
    · rintro h row ⟨hrow, hp, hnewest⟩
      exact h row hrow hp hnewest
    · intro h row hrow hp hnewest
      exact h row ⟨hrow, hp, hnewest⟩)

def NoneMatch (p : Incident → Bool) (db : Database) : Prop :=
  ∀ other ∈ db.incidents, p other = false

instance : Std.Total newestFirst := ⟨fun a b => le_total b.lastSeen a.lastSeen⟩

instance : IsTrans Incident newestFirst := ⟨fun _ _ _ hab hbc => le_trans hbc hab⟩

variable {env : Env} {db : Database} {key : String} {username sourceIp : Option String}
  {since til : Timestamp}

theorem findOpenRelatedIncident_some {row : Incident}
    (h : db.findOpenRelatedIncident env key username sourceIp since til = some row) :
    Selected (isOpenRelated key username sourceIp since til) db row := by
  obtain ⟨hmem, hp⟩ := selectFirst_mem h
  exact ⟨hmem, hp, fun other ho hpo => selectFirst_before h ho hpo⟩

theorem findOpenRelatedIncident_none
    (h : db.findOpenRelatedIncident env key username sourceIp since til = none) :
    NoneMatch (isOpenRelated key username sourceIp since til) db :=
  selectFirst_none.mp h

def primaryUsername (env : Env) (db : Database) (alert : Alert) : Option String :=
  selectPrimaryUsername (candidateAlerts env db alert)

def primarySourceIp (env : Env) (db : Database) (alert : Alert) : Option String :=
  selectPrimarySourceIp (candidateAlerts env db alert)

def credentialKey (env : Env) (db : Database) (alert : Alert) : String :=
  buildCorrelationKey env.text (primaryUsername env db alert) (primarySourceIp env db alert)

def credentialMatch (env : Env) (db : Database) (alert : Alert) : Incident → Bool :=
  isOpenRelated (credentialKey env db alert) (primaryUsername env db alert)
    (primarySourceIp env db alert) (mergeSince env alert) alert.lastSeen

def findingMatch (env : Env) (event : Event) (alert : Alert) : Incident → Bool :=
  isOpenRelated (eventFindingKey env event) none none (findingSince alert) (findingUntil alert)

end Lookups

section Merged

structure Merged (db db' : Database) (row row' : Incident) (alertIds : List Uuid) : Prop where
  events : db'.events = db.events
  alerts : db'.alerts = db.alerts
  links : db'.links = db.links ++
    (alertIds.filter fun id => (row.id, id) ∉ db.links).map fun id => (row.id, id)
  id : row'.id = row.id
  mem : ∀ r, r ∈ db'.incidents ↔ r = row' ∨ r ∈ db.incidents ∧ r.id ≠ row.id
  rows : (row ∈ db.incidents ∧ db'.incidents.map (·.id) = db.incidents.map (·.id) ∧
      db'.nextId = db.nextId) ∨
    (row.id = db.nextId ∧ db'.incidents.map (·.id) = db.incidents.map (·.id) ++ [row.id] ∧
      db'.nextId = db.nextId + 1)

section Update

variable (db : Database) {row row' : Incident}

theorem mem_updateIncident (hmem : row ∈ db.incidents) (hid : row'.id = row.id) (r : Incident) :
    r ∈ (db.updateIncident row').incidents ↔ r = row' ∨ r ∈ db.incidents ∧ r.id ≠ row.id := by
  simp only [updateIncident, List.mem_map, hid]
  constructor
  · rintro ⟨s, hs, rfl⟩
    split
    · exact .inl rfl
    · exact .inr ⟨hs, ‹_›⟩
  · rintro (rfl | ⟨hr, hne⟩)
    · exact ⟨row, hmem, if_pos rfl⟩
    · exact ⟨r, hr, if_neg hne⟩

theorem ids_updateIncident (row' : Incident) :
    (db.updateIncident row').incidents.map (·.id) = db.incidents.map (·.id) := by
  simp only [updateIncident, List.map_map]
  refine List.map_congr_left fun r _ => ?_
  simp only [Function.comp_apply]
  split
  · exact Eq.symm ‹_›
  · rfl

end Update

variable {db db' : Database} {row row' : Incident} {alertIds : List Uuid}

theorem merged_found (hmem : row ∈ db.incidents) (hid : row'.id = row.id) :
    Merged db ((db.addAlertLinks row.id alertIds).updateIncident row') row row' alertIds where
  events := rfl
  alerts := rfl
  links := rfl
  id := hid
  mem := mem_updateIncident (db.addAlertLinks row.id alertIds) hmem hid
  rows := .inl ⟨hmem, ids_updateIncident (db.addAlertLinks row.id alertIds) row', rfl⟩

theorem merged_created {new : Uuid → Incident} (hnew : (new db.nextId).id = db.nextId)
    (hid : row'.id = db.nextId) :
    Merged db (((db.createIncident new).1.addAlertLinks (new db.nextId).id alertIds).updateIncident
      row') (new db.nextId) row' alertIds where
  events := rfl
  alerts := rfl
  links := rfl
  id := hid.trans hnew.symm
  mem := by
    intro r
    have hlast : new db.nextId ∈
        ((db.createIncident new).1.addAlertLinks (new db.nextId).id alertIds).incidents :=
      List.mem_append_right _ List.mem_cons_self
    rw [mem_updateIncident _ hlast (hid.trans hnew.symm)]
    simp only [addAlertLinks, createIncident, List.mem_append, List.mem_singleton]
    constructor
    · rintro (h | ⟨h | rfl, hne⟩)
      · exact .inl h
      · exact .inr ⟨h, hne⟩
      · exact absurd rfl hne
    · rintro (h | ⟨h, hne⟩)
      · exact .inl h
      · exact .inr ⟨.inl h, hne⟩
  rows := by
    refine .inr ⟨hnew, ?_, rfl⟩
    rw [ids_updateIncident]
    simp [addAlertLinks, createIncident]

theorem Merged.mem_links (h : Merged db db' row row' alertIds) (p : Uuid × Uuid) :
    p ∈ db'.links ↔ p ∈ db.links ∨ p.1 = row.id ∧ p.2 ∈ alertIds := by
  obtain ⟨incidentId, alertId⟩ := p
  rw [h.links]
  simp only [List.mem_append, List.mem_map, List.mem_filter, decide_eq_true_eq, Prod.mk.injEq]
  constructor
  · rintro (hp | ⟨id, ⟨hid, _⟩, rfl, rfl⟩)
    · exact .inl hp
    · exact .inr ⟨rfl, hid⟩
  · rintro (hp | ⟨rfl, hid⟩)
    · exact .inl hp
    · by_cases hold : (row.id, alertId) ∈ db.links
      · exact .inl hold
      · exact .inr ⟨alertId, ⟨hid, hold⟩, rfl, rfl⟩

theorem Merged.mem_row (h : Merged db db' row row' alertIds) : row' ∈ db'.incidents :=
  (h.mem row').mpr (.inl rfl)

end Merged

section Targets

variable {env : Env} {db : Database} {alert : Alert} {row : Incident}

theorem selected_opened {key : String} {username sourceIp : Option String} {since til : Timestamp}
    (h : Selected (isOpenRelated key username sourceIp since til) db row) :
    row.status = "open" := by
  have hp := h.2.1
  simp only [isOpenRelated, Bool.and_eq_true, decide_eq_true_eq] at hp
  exact hp.1.1

theorem credentialMatch_lastSeen (h : credentialMatch env db alert row = true) :
    row.lastSeen ≤ alert.lastSeen := by
  simp only [credentialMatch, isOpenRelated, Bool.and_eq_true, decide_eq_true_eq] at h
  exact h.2.2

def CredentialTarget (env : Env) (db : Database) (alert : Alert) (row : Incident) : Prop :=
  Selected (credentialMatch env db alert) db row ∨
    NoneMatch (credentialMatch env db alert) db ∧ ∃ first last,
      row = credentialIncident (credentialKey env db alert) (primaryUsername env db alert)
        (primarySourceIp env db alert) first last db.nextId

def FindingTarget (env : Env) (db : Database) (alert : Alert) (event : Event) (row : Incident) :
    Prop :=
  Selected (findingMatch env event alert) db row ∨
    NoneMatch (findingMatch env event alert) db ∧ ∃ score,
      findingScores.lookup alert.severity = some score ∧
      row = findingIncident alert (eventFindingKey env event) score db.nextId

theorem CredentialTarget.opened (h : CredentialTarget env db alert row) : row.status = "open" := by
  rcases h with hsel | ⟨_, _, _, rfl⟩
  · exact selected_opened hsel
  · rfl

theorem FindingTarget.opened {event : Event} (h : FindingTarget env db alert event row) :
    row.status = "open" := by
  rcases h with hsel | ⟨_, _, _, rfl⟩
  · exact selected_opened hsel
  · rfl

theorem findingMatch_key {event : Event} (h : findingMatch env event alert row = true) :
    row.correlationKey = eventFindingKey env event := by
  simp only [findingMatch, isOpenRelated, identifies, sameIdentity, Bool.and_eq_true,
    Bool.or_eq_true, decide_eq_true_eq, Option.isSome_none, Bool.false_and, Bool.false_eq_true,
    or_false] at h
  exact h.1.2

theorem isFindingKey_of_findingMatch {event : Event}
    (h : findingMatch env event alert row = true) : isFindingKey row.correlationKey := by
  rw [findingMatch_key h]
  exact isFindingKey_findingKey _ _

theorem FindingTarget.key {event : Event} (h : FindingTarget env db alert event row) :
    row.correlationKey = eventFindingKey env event := by
  rcases h with hsel | ⟨_, score, _, rfl⟩
  · exact findingMatch_key hsel.2.1
  · rfl

end Targets

section Manual

variable {env : Env}

theorem first_of_manualKey (payload : IncidentCreate) (id : Uuid) :
    (manualKey env payload id).toList.head? = some 'm' := by
  have hstart : "manual:".toList <+: (manualKey env payload id).toList := by
    unfold manualKey
    rw [String.append_assoc, String.append_assoc, String.append_assoc, String.append_assoc]
    exact prefix_append_text _ _
  exact first_of_start (by decide) hstart

theorem manualKey_not_credential (payload : IncidentCreate) (id : Uuid) :
    ¬ isCredentialKey (manualKey env payload id) := by
  intro h
  have hc := first_of_start (c := 'c') (by decide) h
  rw [first_of_manualKey] at hc
  exact absurd hc (by decide)

theorem manualKey_not_finding (payload : IncidentCreate) (id : Uuid) :
    ¬ isFindingKey (manualKey env payload id) := by
  intro h
  have hf := first_of_start (c := 'f') (by decide) h
  rw [first_of_manualKey] at hf
  exact absurd hf (by decide)

end Manual

section Correlated

inductive Correlated (env : Env) (db : Database) (alert : Alert) (db' : Database) : Prop where
  | ignored (rule : alert.ruleId ≠ cloudFindingId)
      (candidates : alert.ruleId ∈ allowedRules → candidateAlerts env db alert = [])
      (same : db' = db)
  | credential (row row' : Incident) (firstSeen lastSeen : Timestamp)
      (rule : alert.ruleId ∈ allowedRules) (candidates : candidateAlerts env db alert ≠ [])
      (merged : Merged db db' row row' ((candidateAlerts env db alert).map (·.id)))
      (target : CredentialTarget env db alert row)
      (refresh : row' = refreshCredential env db' (credentialKey env db alert)
        (primaryUsername env db alert) (primarySourceIp env db alert)
        (db'.alertsForIncident env row.id) firstSeen lastSeen row)
      (first : ((db'.alertsForIncident env row.id).map (·.firstSeen)).min? = some firstSeen)
      (last : ((db'.alertsForIncident env row.id).map (·.lastSeen)).max? = some lastSeen)
  | finding (event : Event) (row row' : Incident) (scores : List Int) (topScore : Int)
      (lastSeen : Timestamp) (rule : alert.ruleId = cloudFindingId)
      (found : db.eventById alert.eventId = some event)
      (merged : Merged db db' row row' [alert.id])
      (target : FindingTarget env db alert event row)
      (refresh : row' = refreshFinding env db' (db'.alertsForIncident env row.id) topScore lastSeen
        row)
      (scored : (db'.alertsForIncident env row.id).mapM
        (fun item => findingScores.lookup item.severity) = some scores)
      (top : scores.max? = some topScore)
      (last : ((db'.alertsForIncident env row.id).map (·.lastSeen)).max? = some lastSeen)

variable {env : Env} {db db' : Database} {alert : Alert}

theorem correlated_of_candidates (hrule : alert.ruleId ∈ allowedRules)
    (hne : candidateAlerts env db alert ≠ [])
    (h : correlateCandidates env db alert (candidateAlerts env db alert) = some db') :
    Correlated env db alert db' := by
  unfold correlateCandidates at h
  cases hfind : db.findOpenRelatedIncident env (credentialKey env db alert)
      (primaryUsername env db alert) (primarySourceIp env db alert) (mergeSince env alert)
      alert.lastSeen with
  | some row =>
      simp only [credentialKey, primaryUsername, primarySourceIp] at hfind
      simp only [hfind] at h
      obtain ⟨_, h1, h⟩ := Option.bind_eq_some_iff.mp h
      cases h1
      obtain ⟨firstSeen, hfirst, h⟩ := Option.bind_eq_some_iff.mp h
      obtain ⟨lastSeen, hlast, h⟩ := Option.bind_eq_some_iff.mp h
      cases h
      have hsel := findOpenRelatedIncident_some hfind
      exact .credential row _ firstSeen lastSeen hrule hne (merged_found hsel.1 rfl) (.inl hsel)
        rfl hfirst hlast
  | none =>
      simp only [credentialKey, primaryUsername, primarySourceIp] at hfind
      simp only [hfind] at h
      obtain ⟨first, _, h⟩ := Option.bind_eq_some_iff.mp h
      obtain ⟨last, _, h⟩ := Option.bind_eq_some_iff.mp h
      obtain ⟨_, h1, h⟩ := Option.bind_eq_some_iff.mp h
      cases h1
      obtain ⟨firstSeen, hfirst, h⟩ := Option.bind_eq_some_iff.mp h
      obtain ⟨lastSeen, hlast, h⟩ := Option.bind_eq_some_iff.mp h
      cases h
      exact .credential _ _ firstSeen lastSeen hrule hne (merged_created rfl rfl)
        (.inr ⟨findOpenRelatedIncident_none hfind, first, last, rfl⟩) rfl hfirst hlast

theorem correlated_of_finding (hrule : alert.ruleId = cloudFindingId)
    (h : correlateCloudFinding env db alert = some db') : Correlated env db alert db' := by
  obtain ⟨event, hevent, h⟩ := Option.bind_eq_some_iff.mp h
  have hevent : db.eventById alert.eventId = some event := by
    simpa [getByIds] using hevent
  cases hfind : db.findOpenRelatedIncident env (eventFindingKey env event) none none
      (findingSince alert) (findingUntil alert) with
  | some row =>
      simp only [hfind] at h
      obtain ⟨_, h1, h⟩ := Option.bind_eq_some_iff.mp h
      cases h1
      obtain ⟨scores, hscores, h⟩ := Option.bind_eq_some_iff.mp h
      obtain ⟨topScore, htop, h⟩ := Option.bind_eq_some_iff.mp h
      obtain ⟨lastSeen, hlast, h⟩ := Option.bind_eq_some_iff.mp h
      cases h
      have hsel := findOpenRelatedIncident_some hfind
      exact .finding event row _ scores topScore lastSeen hrule hevent (merged_found hsel.1 rfl)
        (.inl hsel) rfl hscores htop hlast
  | none =>
      simp only [hfind] at h
      obtain ⟨score, hscore, h⟩ := Option.bind_eq_some_iff.mp h
      obtain ⟨_, h1, h⟩ := Option.bind_eq_some_iff.mp h
      cases h1
      obtain ⟨scores, hscores, h⟩ := Option.bind_eq_some_iff.mp h
      obtain ⟨topScore, htop, h⟩ := Option.bind_eq_some_iff.mp h
      obtain ⟨lastSeen, hlast, h⟩ := Option.bind_eq_some_iff.mp h
      cases h
      exact .finding event _ _ scores topScore lastSeen hrule hevent (merged_created rfl rfl)
        (.inr ⟨findOpenRelatedIncident_none hfind, score, hscore, rfl⟩) rfl hscores htop hlast

theorem correlateAlert_cases (h : correlateAlert env db alert = some db') :
    Correlated env db alert db' := by
  unfold correlateAlert at h
  split at h
  · exact correlated_of_finding ‹_› h
  · rename_i hfinding
    split at h
    · rename_i hallowed
      cases h
      exact .ignored hfinding (fun hrule => absurd hrule hallowed) rfl
    · rename_i hallowed
      have hrule : alert.ruleId ∈ allowedRules := not_not.mp hallowed
      split at h
      · rename_i hnil
        cases h
        exact .ignored hfinding (fun _ => hnil) rfl
      · rename_i candidate candidates hcons
        rw [← hcons] at h
        exact correlated_of_candidates hrule (by simp [hcons]) h

theorem correlateAlert_frame (h : correlateAlert env db alert = some db') :
    db'.events = db.events ∧ db'.alerts = db.alerts := by
  cases correlateAlert_cases h with
  | ignored _ _ same => exact same ▸ ⟨rfl, rfl⟩
  | credential row row' firstSeen lastSeen rule candidates merged target refresh first last =>
      exact ⟨merged.events, merged.alerts⟩
  | finding event row row' scores topScore lastSeen rule found merged target refresh scored top
      last =>
      exact ⟨merged.events, merged.alerts⟩

theorem correlate_frame {alerts : List Alert} (h : correlate env db alerts = some db') :
    db'.events = db.events ∧ db'.alerts = db.alerts := by
  induction alerts generalizing db with
  | nil =>
      cases h
      exact ⟨rfl, rfl⟩
  | cons alert alerts ih =>
      obtain ⟨db1, hfirst, hrest⟩ := Option.bind_eq_some_iff.mp h
      have hframe := correlateAlert_frame hfirst
      have hframes := ih hrest
      exact ⟨hframes.1.trans hframe.1, hframes.2.trans hframe.2⟩

end Correlated

end Correlation

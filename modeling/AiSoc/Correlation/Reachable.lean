import AiSoc.Correlation.Ingestion
import AiSoc.Correlation.Merging
import AiSoc.Correlation.Raised

namespace Correlation

open Permissions (Uuid Timestamp)
open PyJson PyStr Database Query Transition

section Candidates

variable {env : Env} {db : Database} {alert : Alert}

theorem mem_credentialCompromiseCandidates {alerts : List Alert} {a : Alert}
    (h : a ∈ credentialCompromiseCandidates alerts) : a ∈ alerts ∧ a.ruleId ∈ allowedRules := by
  unfold credentialCompromiseCandidates at h
  simp only at h
  split at h
  · simpa using h
  · cases h

theorem mem_candidates_of_ne_nil {alerts : List Alert} {a : Alert} (ha : a ∈ alerts)
    (hrule : a.ruleId ∈ allowedRules) (hne : credentialCompromiseCandidates alerts ≠ []) :
    a ∈ credentialCompromiseCandidates alerts := by
  unfold credentialCompromiseCandidates at hne ⊢
  simp only at hne ⊢
  split at hne
  · rename_i hrules
    rw [if_pos hrules]
    exact List.mem_filter.mpr ⟨ha, decide_eq_true hrule⟩
  · exact absurd rfl hne

theorem candidates_sublist (alerts : List Alert) :
    (credentialCompromiseCandidates alerts).Sublist alerts := by
  unfold credentialCompromiseCandidates
  simp only
  split
  · exact List.filter_sublist
  · exact List.nil_sublist _

theorem mem_relatedAlerts {username sourceIp : Option String} {since til : Timestamp} {a : Alert}
    (h : a ∈ db.relatedAlerts env username sourceIp since til) :
    a ∈ db.alerts ∧ since ≤ a.lastSeen ∧ a.lastSeen ≤ til := by
  obtain ⟨hmem, hp⟩ := mem_select.mp h
  simp only [Bool.and_eq_true, decide_eq_true_eq] at hp
  exact ⟨hmem, hp.1⟩

theorem candidate_rule {a : Alert} (h : a ∈ candidateAlerts env db alert) :
    a.ruleId ∈ allowedRules :=
  (mem_credentialCompromiseCandidates h).2

theorem relatedWith_cases {a : Alert} (h : a ∈ relatedWith env db alert) :
    a = alert ∨ a ∈ db.relatedAlerts env alert.username alert.sourceIp (lookback env alert)
      alert.lastSeen := by
  unfold relatedWith at h
  simp only at h
  split at h
  · exact .inr h
  · rcases List.mem_append.mp h with hin | hin
    · exact .inr hin
    · exact .inl (List.mem_singleton.mp hin)

theorem mem_relatedWith_of_related {a : Alert} (h : a ∈ db.relatedAlerts env alert.username
    alert.sourceIp (lookback env alert) alert.lastSeen) : a ∈ relatedWith env db alert := by
  unfold relatedWith
  simp only
  split
  · exact h
  · exact List.mem_append_left _ h

theorem candidate_cases {a : Alert} (h : a ∈ candidateAlerts env db alert) :
    a = alert ∨ a ∈ db.alerts ∧ lookback env alert ≤ a.lastSeen ∧ a.lastSeen ≤ alert.lastSeen :=
  (relatedWith_cases (mem_credentialCompromiseCandidates h).1).imp_right mem_relatedAlerts

theorem candidate_lastSeen {a : Alert} (h : a ∈ candidateAlerts env db alert) :
    a.lastSeen ≤ alert.lastSeen := by
  rcases candidate_cases h with rfl | ⟨_, _, hle⟩
  · exact le_refl _
  · exact hle

theorem candidate_stored (halert : alert ∈ db.alerts) {a : Alert}
    (h : a ∈ candidateAlerts env db alert) : a ∈ db.alerts := by
  rcases candidate_cases h with rfl | ⟨hmem, _⟩
  · exact halert
  · exact hmem

theorem candidates_nodup (hn : (db.alerts.map (·.id)).Nodup) :
    ((candidateAlerts env db alert).map (·.id)).Nodup := by
  have hsub := (candidates_sublist (relatedWith env db alert)).map (·.id)
  refine hsub.nodup ?_
  unfold relatedWith
  simp only
  have hrelated : ((db.relatedAlerts env alert.username alert.sourceIp (lookback env alert)
      alert.lastSeen).map (·.id)).Nodup := select_map_nodup hn
  split
  · exact hrelated
  · rename_i hnew
    rw [List.map_append]
    refine List.Nodup.append hrelated (List.nodup_singleton _) ?_
    simpa using hnew

theorem eq_of_id {α : Type} {f : α → Uuid} {rows : List α} (hn : (rows.map f).Nodup) {a b : α}
    (ha : a ∈ rows) (hb : b ∈ rows) (hid : f a = f b) : a = b :=
  List.inj_on_of_nodup_map hn ha hb hid

theorem self_mem_relatedWith (hn : (db.alerts.map (·.id)).Nodup) (halert : alert ∈ db.alerts) :
    alert ∈ relatedWith env db alert := by
  unfold relatedWith
  simp only
  split
  · rename_i hin
    obtain ⟨a, ha, hid⟩ := List.mem_map.mp hin
    exact eq_of_id hn (mem_relatedAlerts ha).1 halert hid ▸ ha
  · exact List.mem_append_right _ List.mem_cons_self

theorem alert_candidate (hn : (db.alerts.map (·.id)).Nodup) (halert : alert ∈ db.alerts)
    (hrule : alert.ruleId ∈ allowedRules) (hne : candidateAlerts env db alert ≠ []) :
    alert ∈ candidateAlerts env db alert :=
  mem_candidates_of_ne_nil (self_mem_relatedWith hn halert) hrule hne

end Candidates

section Linked

variable {env : Env} {db db' : Database} {row row' : Incident} {alertIds : List Uuid}

theorem mem_alertsForIncident {id : Uuid} {a : Alert} :
    a ∈ db.alertsForIncident env id ↔ a ∈ db.alerts ∧ (id, a.id) ∈ db.links := by
  simp only [alertsForIncident, mem_select, decide_eq_true_eq]

theorem Merged.links_of_ne (h : Merged db db' row row' alertIds) {id : Uuid} (hne : id ≠ row.id)
    (alertId : Uuid) : (id, alertId) ∈ db'.links ↔ (id, alertId) ∈ db.links := by
  rw [h.mem_links]
  simp [hne]

theorem lastSeen_le_of_max {id : Uuid} {lastSeen : Timestamp} {a : Alert}
    (h : ((db.alertsForIncident env id).map (·.lastSeen)).max? = some lastSeen)
    (ha : a ∈ db.alerts) (hlink : (id, a.id) ∈ db.links) : a.lastSeen ≤ lastSeen :=
  (List.max?_eq_some_iff.mp h).2 _ (List.mem_map_of_mem (mem_alertsForIncident.mpr ⟨ha, hlink⟩))

end Linked

structure Rewrites (env : Env) (db : Database) (alert : Alert) (db' : Database)
    (row row' : Incident) (alertIds : List Uuid) : Prop where
  merged : Merged db db' row row' alertIds
  opened : row.status = "open"
  status : row'.status = row.status
  last : ((db'.alertsForIncident env row.id).map (·.lastSeen)).max? = some row'.lastSeen
  source : alert.ruleId = cloudFindingId ∧ alertIds = [alert.id] ∨
    ∀ id ∈ alertIds, ∃ a ∈ db.alerts, a.id = id ∧ a.ruleId ∈ allowedRules
  nodup : alertIds.Nodup

structure Consistent (db : Database) (pending : List Alert) : Prop where
  events_nodup : (db.events.map (·.id)).Nodup
  eventIds_nodup : (db.events.map (·.eventId)).Nodup
  alerts_nodup : (db.alerts.map (·.id)).Nodup
  incidents_nodup : (db.incidents.map (·.id)).Nodup
  links_nodup : db.links.Nodup
  events_lt : ∀ event ∈ db.events, event.id < db.nextId
  alerts_lt : ∀ alert ∈ db.alerts, alert.id < db.nextId
  incidents_lt : ∀ row ∈ db.incidents, row.id < db.nextId
  raised : ∀ alert ∈ db.alerts, ∃ event ∈ db.events, Raised event alert
  linked_incident : ∀ p ∈ db.links, ∃ row ∈ db.incidents, row.id = p.1
  linked_alert : ∀ p ∈ db.links, ∃ alert ∈ db.alerts, alert.id = p.2
  opened : ∀ row ∈ db.incidents, row.status = "open"
  covers : ∀ row ∈ db.incidents, ∀ alert ∈ db.alerts, (row.id, alert.id) ∈ db.links →
    alert.lastSeen ≤ row.lastSeen
  pending_stored : ∀ alert ∈ pending, alert ∈ db.alerts
  pending_nodup : (pending.map (·.id)).Nodup
  pending_unlinked : ∀ alert ∈ pending, alert.ruleId = cloudFindingId →
    ∀ id, (id, alert.id) ∉ db.links

theorem Consistent.not_linked {db : Database} {pending : List Alert} (hc : Consistent db pending)
    (alertId : Uuid) : (db.nextId, alertId) ∉ db.links := by
  intro hlink
  obtain ⟨row, hrow, hid⟩ := hc.linked_incident _ hlink
  have hlt := hc.incidents_lt row hrow
  rw [hid] at hlt
  exact lt_irrefl _ hlt

theorem Merged.row_of_link {db db' : Database} {pending : List Alert} {row row' : Incident}
    {alertIds : List Uuid} (h : Merged db db' row row' alertIds) (hc : Consistent db pending)
    {alertId : Uuid} (hlink : (row.id, alertId) ∈ db.links) : row ∈ db.incidents := by
  rcases h.rows with ⟨hrow, _⟩ | ⟨hid, _⟩
  · exact hrow
  · exact absurd (hid ▸ hlink) (hc.not_linked alertId)

theorem eventById_iff {db : Database} {pending : List Alert} {id : Uuid}
    (hc : Consistent db pending) {event : Event} :
    db.eventById id = some event ↔ event ∈ db.events ∧ event.id = id := by
  constructor
  · intro h
    exact ⟨List.mem_of_find?_eq_some h, by simpa using List.find?_some h⟩
  · rintro ⟨hmem, rfl⟩
    cases hfind : db.eventById event.id with
    | none =>
        have hno := List.find?_eq_none.mp hfind event hmem
        simp at hno
    | some other =>
        have hother := List.find?_some hfind
        have hid : other.id = event.id := by simpa using hother
        rw [eq_of_id hc.events_nodup (List.mem_of_find?_eq_some hfind) hmem hid]

theorem eventById_detected {env : Env} {db db' : Database} {payload : EventCreate}
    {alerts : List Alert} (hc : Consistent db []) (hd : Detected env db payload db' alerts)
    {alert : Alert} (halert : alert ∈ db.alerts) :
    db'.eventById alert.eventId = db.eventById alert.eventId := by
  obtain ⟨event, hevent, hraised⟩ := hc.raised alert halert
  have hfound := (eventById_iff hc).mpr ⟨hevent, hraised.eventId.symm⟩
  unfold eventById at hfound ⊢
  rw [hd.events, List.find?_append, hfound]
  rfl

theorem unlinked_of_detected {env : Env} {db db' : Database} {payload : EventCreate}
    {alerts : List Alert} (hc : Consistent db []) (hd : Detected env db payload db' alerts)
    {alert : Alert} (halert : alert ∈ alerts) (id : Uuid) : (id, alert.id) ∉ db.links := by
  intro hlink
  obtain ⟨b, hb, hid⟩ := hc.linked_alert _ hlink
  have hlt := hc.alerts_lt b hb
  have hin : alert.id ∈ alerts.map (·.id) := List.mem_map_of_mem halert
  rw [hd.ids, List.mem_range'_1] at hin
  simp only at hid
  lia

theorem mem_createManualIncident {env : Env} {db : Database} {payload : IncidentCreate}
    {row : Incident} (h : row ∈ (createManualIncident env db payload).incidents) :
    row ∈ db.incidents ∨ row = manualIncident env payload db.nextId :=
  (List.mem_append.mp h).imp_right List.mem_singleton.mp

theorem consistent_empty : Consistent Database.empty [] := by
  constructor <;> simp [Database.empty]

theorem cloudFinding_not_allowed : cloudFindingId ∉ allowedRules := by
  decide

section Steps

variable {env : Env} {db db' : Database} {alert : Alert} {pending : List Alert}

theorem Correlated.rewrites (h : Correlated env db alert db') (hn : (db.alerts.map (·.id)).Nodup)
    (halert : alert ∈ db.alerts) :
    db' = db ∨ ∃ row row' alertIds, Rewrites env db alert db' row row' alertIds := by
  cases h with
  | ignored _ _ same => exact .inl same
  | credential row row' firstSeen lastSeen rule candidates merged target refresh first last =>
      have hopened := target.opened
      refine .inr ⟨row, row', _, merged, hopened, ?_, ?_, .inr ?_, candidates_nodup hn⟩
      · rw [refresh]
        rfl
      · rw [last, refresh]
        rfl
      · intro id hid
        obtain ⟨a, ha, rfl⟩ := List.mem_map.mp hid
        exact ⟨a, candidate_stored halert ha, rfl, candidate_rule ha⟩
  | finding event row row' scores topScore lastSeen rule found merged target refresh scored top
      last =>
      have hopened := target.opened
      refine .inr ⟨row, row', _, merged, hopened, ?_, ?_, .inl ⟨rule, rfl⟩, List.nodup_singleton _⟩
      · rw [refresh]
        rfl
      · rw [last, refresh]
        rfl

variable {row row' : Incident} {alertIds : List Uuid}

theorem Rewrites.stored (h : Rewrites env db alert db' row row' alertIds)
    (halert : alert ∈ db.alerts) : ∀ id ∈ alertIds, ∃ a ∈ db.alerts, a.id = id := by
  intro id hid
  rcases h.source with ⟨_, rfl⟩ | hall
  · exact ⟨alert, halert, (List.mem_singleton.mp hid).symm⟩
  · obtain ⟨a, ha, haid, _⟩ := hall id hid
    exact ⟨a, ha, haid⟩

theorem Merged.ids_mono {id : Uuid} (h : Merged db db' row row' alertIds)
    (hid : ∃ s ∈ db.incidents, s.id = id) : ∃ s ∈ db'.incidents, s.id = id := by
  obtain ⟨s, hs, rfl⟩ := hid
  by_cases hrow : s.id = row.id
  · exact ⟨row', h.mem_row, h.id.trans hrow.symm⟩
  · exact ⟨s, (h.mem s).mpr (.inr ⟨hs, hrow⟩), rfl⟩

theorem Merged.nextId_le (h : Merged db db' row row' alertIds) : db.nextId ≤ db'.nextId := by
  rcases h.rows with ⟨_, _, hn⟩ | ⟨_, _, hn⟩ <;> lia

theorem Consistent.correlate (hc : Consistent db (alert :: pending))
    (h : Rewrites env db alert db' row row' alertIds) : Consistent db' pending := by
  have halert := hc.pending_stored alert List.mem_cons_self
  have hm := h.merged
  refine ⟨?_, ?_, ?_, ?_, ?_, ?_, ?_, ?_, ?_, ?_, ?_, ?_, ?_, ?_, ?_, ?_⟩
  · exact hm.events ▸ hc.events_nodup
  · exact hm.events ▸ hc.eventIds_nodup
  · exact hm.alerts ▸ hc.alerts_nodup
  · rcases hm.rows with ⟨_, hids, _⟩ | ⟨hid, hids, _⟩
    · exact hids ▸ hc.incidents_nodup
    · rw [hids]
      refine List.Nodup.append hc.incidents_nodup (List.nodup_singleton _) ?_
      rw [List.disjoint_singleton, hid]
      intro hmem
      obtain ⟨s, hs, hsid⟩ := List.mem_map.mp hmem
      have hlt := hc.incidents_lt s hs
      lia
  · rw [hm.links]
    refine List.Nodup.append hc.links_nodup ?_ ?_
    · exact (h.nodup.filter _).map fun a b hab => (Prod.mk.inj hab).2
    · rintro p hp hnew
      obtain ⟨id, hid, rfl⟩ := List.mem_map.mp hnew
      exact of_decide_eq_true (List.mem_filter.mp hid).2 hp
  · intro event hevent
    exact lt_of_lt_of_le (hc.events_lt event (hm.events ▸ hevent)) hm.nextId_le
  · intro a ha
    exact lt_of_lt_of_le (hc.alerts_lt a (hm.alerts ▸ ha)) hm.nextId_le
  · intro r hr
    have hle := hm.nextId_le
    rcases hm.rows with ⟨hrow, _, _⟩ | ⟨hid, _, hn⟩
    · rcases (hm.mem r).mp hr with rfl | ⟨hr, _⟩
      · have hlt := hc.incidents_lt row hrow
        have hid := hm.id
        lia
      · have hlt := hc.incidents_lt r hr
        lia
    · rcases (hm.mem r).mp hr with rfl | ⟨hr, _⟩
      · have hid' := hm.id
        lia
      · have hlt := hc.incidents_lt r hr
        lia
  · intro a ha
    obtain ⟨event, hevent, hraised⟩ := hc.raised a (hm.alerts ▸ ha)
    exact ⟨event, hm.events ▸ hevent, hraised⟩
  · intro p hp
    rcases (hm.mem_links p).mp hp with hp | ⟨hp, _⟩
    · exact hm.ids_mono (hc.linked_incident p hp)
    · exact ⟨row', hm.mem_row, hm.id.trans hp.symm⟩
  · intro p hp
    rw [hm.alerts]
    rcases (hm.mem_links p).mp hp with hp | ⟨_, hid⟩
    · exact hc.linked_alert p hp
    · exact h.stored halert p.2 hid
  · intro r hr
    rcases (hm.mem r).mp hr with rfl | ⟨hr, _⟩
    · exact h.status.trans h.opened
    · exact hc.opened r hr
  · intro r hr a ha hlink
    rcases (hm.mem r).mp hr with rfl | ⟨hr, hne⟩
    · exact lastSeen_le_of_max h.last ha (hm.id ▸ hlink)
    · exact hc.covers r hr a (hm.alerts ▸ ha) ((hm.links_of_ne hne a.id).mp hlink)
  · intro a ha
    rw [hm.alerts]
    exact hc.pending_stored a (List.mem_cons_of_mem _ ha)
  · exact (List.nodup_cons.mp hc.pending_nodup).2
  · intro a ha hfinding id hlink
    rcases (hm.mem_links _).mp hlink with hlink | ⟨_, hid⟩
    · exact hc.pending_unlinked a (List.mem_cons_of_mem _ ha) hfinding id hlink
    · rcases h.source with ⟨_, rfl⟩ | hall
      · have hsame : a.id = alert.id := List.mem_singleton.mp hid
        exact (List.nodup_cons.mp hc.pending_nodup).1 (List.mem_map.mpr ⟨a, ha, hsame⟩)
      · obtain ⟨b, hb, hbid, hrule⟩ := hall a.id hid
        have hstored := hc.pending_stored a (List.mem_cons_of_mem _ ha)
        rw [eq_of_id hc.alerts_nodup hb hstored hbid, hfinding] at hrule
        exact cloudFinding_not_allowed hrule

theorem Consistent.detect {payload : EventCreate} {alerts : List Alert} (hc : Consistent db [])
    (h : Detected env db payload db' alerts) : Consistent db' alerts := by
  have hnew : ∀ a ∈ alerts, db.nextId < a.id ∧ a.id < db'.nextId := by
    intro a ha
    have hmem : a.id ∈ alerts.map (·.id) := List.mem_map_of_mem ha
    rw [h.ids, List.mem_range'_1] at hmem
    have hn := h.nextId
    lia
  have hle : db.nextId < db'.nextId := by
    have hn := h.nextId
    lia
  have hids : (alerts.map (·.id)).Nodup := h.ids ▸ List.nodup_range'
  refine ⟨?_, ?_, ?_, ?_, ?_, ?_, ?_, ?_, ?_, ?_, ?_, ?_, ?_, ?_, hids, ?_⟩
  · rw [h.events, List.map_append]
    refine List.Nodup.append hc.events_nodup (List.nodup_singleton _) ?_
    rw [List.map_singleton, List.disjoint_singleton]
    intro hmem
    obtain ⟨event, hevent, hid⟩ := List.mem_map.mp hmem
    have hlt := hc.events_lt event hevent
    simp only [normalizeEvent] at hid
    lia
  · rw [h.events, List.map_append]
    refine List.Nodup.append hc.eventIds_nodup (List.nodup_singleton _) ?_
    rw [List.map_singleton, List.disjoint_singleton]
    exact h.fresh
  · rw [h.stored, List.map_append]
    refine List.Nodup.append hc.alerts_nodup hids ?_
    intro id hold hin
    obtain ⟨a, ha, rfl⟩ := List.mem_map.mp hold
    obtain ⟨b, hb, hid⟩ := List.mem_map.mp hin
    have hlt := hc.alerts_lt a ha
    have hgt := (hnew b hb).1
    lia
  · exact h.incidents ▸ hc.incidents_nodup
  · exact h.links ▸ hc.links_nodup
  · intro event hevent
    rw [h.events] at hevent
    rcases List.mem_append.mp hevent with hold | hin
    · exact lt_trans (hc.events_lt event hold) hle
    · rw [List.mem_singleton.mp hin]
      exact hle
  · intro a ha
    rw [h.stored] at ha
    rcases List.mem_append.mp ha with hold | hin
    · exact lt_trans (hc.alerts_lt a hold) hle
    · exact (hnew a hin).2
  · intro r hr
    exact lt_trans (hc.incidents_lt r (h.incidents ▸ hr)) hle
  · intro a ha
    rw [h.stored] at ha
    rw [h.events]
    rcases List.mem_append.mp ha with hold | hin
    · obtain ⟨event, hevent, hraised⟩ := hc.raised a hold
      exact ⟨event, List.mem_append_left _ hevent, hraised⟩
    · exact ⟨_, List.mem_append_right _ List.mem_cons_self, h.raised a hin⟩
  · intro p hp
    rw [h.incidents]
    exact hc.linked_incident p (h.links ▸ hp)
  · intro p hp
    obtain ⟨a, ha, hid⟩ := hc.linked_alert p (h.links ▸ hp)
    exact ⟨a, h.stored ▸ List.mem_append_left _ ha, hid⟩
  · intro r hr
    exact hc.opened r (h.incidents ▸ hr)
  · intro r hr a ha hlink
    rw [h.links] at hlink
    obtain ⟨b, hb, hid⟩ := hc.linked_alert _ hlink
    rw [h.stored] at ha
    rcases List.mem_append.mp ha with hold | hin
    · exact hc.covers r (h.incidents ▸ hr) a hold hlink
    · have hlt := hc.alerts_lt b hb
      have hgt := (hnew a hin).1
      simp only at hid
      lia
  · intro a ha
    rw [h.stored]
    exact List.mem_append_right _ ha
  · intro a ha _ id hlink
    obtain ⟨b, hb, hid⟩ := hc.linked_alert _ (h.links ▸ hlink)
    have hlt := hc.alerts_lt b hb
    have hgt := (hnew a ha).1
    simp only at hid
    lia

theorem Consistent.createManualIncident (hc : Consistent db []) (payload : IncidentCreate) :
    Consistent (createManualIncident env db payload) [] := by
  have hlt : db.nextId < db.nextId + 1 := Nat.lt_succ_self _
  refine ⟨hc.events_nodup, hc.eventIds_nodup, hc.alerts_nodup, ?_, hc.links_nodup, ?_, ?_, ?_,
    hc.raised, ?_, hc.linked_alert, ?_, ?_, hc.pending_stored, hc.pending_nodup,
    hc.pending_unlinked⟩
  · simp only [Correlation.createManualIncident, createIncident, List.map_append, List.map_singleton]
    refine List.Nodup.append hc.incidents_nodup (List.nodup_singleton _) ?_
    rw [List.disjoint_singleton]
    intro hmem
    obtain ⟨r, hr, hid⟩ := List.mem_map.mp hmem
    have hrlt := hc.incidents_lt r hr
    rw [hid] at hrlt
    exact lt_irrefl _ hrlt
  · exact fun event hevent => lt_trans (hc.events_lt event hevent) hlt
  · exact fun a ha => lt_trans (hc.alerts_lt a ha) hlt
  · intro r hr
    rcases List.mem_append.mp hr with hr | hr
    · exact lt_trans (hc.incidents_lt r hr) hlt
    · rw [List.mem_singleton.mp hr]
      exact hlt
  · intro p hp
    obtain ⟨r, hr, hid⟩ := hc.linked_incident p hp
    exact ⟨r, List.mem_append_left _ hr, hid⟩
  · intro r hr
    rcases List.mem_append.mp hr with hr | hr
    · exact hc.opened r hr
    · rw [List.mem_singleton.mp hr]
      rfl
  · intro r hr a ha hlink
    rcases List.mem_append.mp hr with hr | hr
    · exact hc.covers r hr a ha hlink
    · rw [List.mem_singleton.mp hr] at hlink
      obtain ⟨s, hs, hid⟩ := hc.linked_incident _ hlink
      have hslt := hc.incidents_lt s hs
      rw [hid] at hslt
      exact absurd hslt (lt_irrefl _)

end Steps

section Runs

variable {env : Env} {ok : Database → Alert → Prop}

structure Preserved (env : Env) (ok : Database → Alert → Prop)
    (P : Database → List Alert → Prop) : Prop where
  detect : ∀ {db db' payload alerts}, Consistent db [] → P db [] →
    Detected env db payload db' alerts → P db' alerts
  correlate : ∀ {db db' alert pending}, Consistent db (alert :: pending) → P db (alert :: pending) →
    ok db alert → Correlated env db alert db' → P db' pending
  manual : ∀ {db} payload, Consistent db [] → P db [] → P (createManualIncident env db payload) []

theorem Consistent.tail {db : Database} {alert : Alert} {pending : List Alert}
    (hc : Consistent db (alert :: pending)) : Consistent db pending :=
  { hc with
    pending_stored := fun a ha => hc.pending_stored a (List.mem_cons_of_mem _ ha)
    pending_nodup := (List.nodup_cons.mp hc.pending_nodup).2
    pending_unlinked := fun a ha => hc.pending_unlinked a (List.mem_cons_of_mem _ ha) }

theorem consistent_correlated {db db' : Database} {alert : Alert} {pending : List Alert}
    (hc : Consistent db (alert :: pending)) (h : Correlated env db alert db') :
    Consistent db' pending := by
  rcases h.rewrites hc.alerts_nodup (hc.pending_stored alert List.mem_cons_self) with
    rfl | ⟨row, row', alertIds, hr⟩
  · exact hc.tail
  · exact hc.correlate hr

theorem Preserved.next {P : Database → List Alert → Prop} (hP : Preserved env ok P)
    {w w' : Work} {action : Action} (hw : Consistent w.1 w.2 ∧ P w.1 w.2)
    (hok : stepMeets ok w action) (h : step env w action = some w') :
    Consistent w'.1 w'.2 ∧ P w'.1 w'.2 := by
  obtain ⟨db, pending⟩ := w
  obtain ⟨hc, hp⟩ := hw
  cases action with
  | detect payload =>
      cases pending with
      | nil =>
          have hd := runDetection_cases h
          exact ⟨hc.detect hd, hP.detect hc hp hd⟩
      | cons alert pending => cases h
  | correlate =>
      cases pending with
      | nil => cases h
      | cons alert pending =>
          obtain ⟨db', hdb', rfl⟩ := Option.map_eq_some_iff.mp h
          have hcases := correlateAlert_cases hdb'
          exact ⟨consistent_correlated hc hcases, hP.correlate hc hp hok hcases⟩
  | createManualIncident payload =>
      cases pending with
      | nil =>
          cases h
          exact ⟨hc.createManualIncident payload, hP.manual payload hc hp⟩
      | cons alert pending => cases h

theorem Preserved.run {P : Database → List Alert → Prop} (hP : Preserved env ok P) {w w' : Work}
    (h : Run (step env) (stepMeets ok) w w') (hw : Consistent w.1 w.2 ∧ P w.1 w.2) :
    Consistent w'.1 w'.2 ∧ P w'.1 w'.2 :=
  h.invariant (P := fun w => Consistent w.1 w.2 ∧ P w.1 w.2)
    (fun _ _ _ hw hok hs => hP.next hw hok hs) hw

theorem Preserved.committed {P : Database → List Alert → Prop} (hP : Preserved env ok P)
    {db : Database} (h : Run (handle env) (correlationsMeet env ok) Database.empty db)
    (hempty : P Database.empty []) : Consistent db [] ∧ P db [] :=
  hP.run (run_of_requests h) ⟨consistent_empty, hempty⟩

theorem Preserved.correlating {P : Database → List Alert → Prop} (hP : Preserved env ok P)
    {db : Database} (h : Run (handle env) (correlationsMeet env ok) Database.empty db)
    (hempty : P Database.empty []) {request : Request} (hok : correlationsMeet env ok db request)
    {p : Database × Alert} (hp : p ∈ request.correlations env db) :
    ∃ pending, Consistent p.1 (p.2 :: pending) ∧ P p.1 (p.2 :: pending) := by
  obtain ⟨pending, hrun⟩ := run_to_correlation hp hok
  exact ⟨pending, hP.run hrun (hP.committed h hempty)⟩

theorem preserved_nothing (env : Env) :
    Preserved env (fun _ _ => True) (fun _ _ => True) where
  detect := fun _ _ _ => trivial
  correlate := fun _ _ _ _ => trivial
  manual := fun _ _ _ => trivial

theorem consistent_of_run {db : Database} (h : Run (handle env) anyStep Database.empty db) :
    Consistent db [] :=
  ((preserved_nothing env).committed (h.mono fun _ _ _ _ _ => trivial) trivial).1

end Runs

end Correlation

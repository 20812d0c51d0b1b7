import AiSoc.Correlation.OneIncident
import AiSoc.Correlation.TimelineEntries
import Mathlib.Order.Bounds.Basic

namespace Correlation

open Permissions (Uuid Timestamp)
open Investigation (EventRow)
open PyJson Database Query Transition

section Statement

def linkedAlerts (db : Database) (incidentId : Uuid) : List Alert :=
  db.alerts.filter fun alert => (incidentId, alert.id) ∈ db.links

def eventsOf (db : Database) (alerts : List Alert) : List Event :=
  db.events.filter fun event => event.id ∈ alerts.map (·.eventId)

def eventRowOf (db : Database) (alert : Alert) : Option EventRow :=
  (db.eventById alert.eventId).map (·.toEventRow)

def ListsLinked (db : Database) (linked : List Alert) (timeline : List Obj) : Prop :=
  ∃ entries : List TimelineEntry, timeline = entries.map (·.toJson) ∧
    (ofType .alert entries).Perm (linked.map fun alert => alertEntry alert (eventRowOf db alert)) ∧
    (ofType .event entries).Perm
      ((eventsOf db linked).map fun event => eventEntry event.toEventRow) ∧
    Lists entries linked ((eventsOf db linked).map (·.toEventRow))

structure Summarises (db : Database) (row : Incident) : Prop where
  first : IsLeast {t | ∃ alert ∈ linkedAlerts db row.id, alert.firstSeen = t} row.firstSeen
  last : IsGreatest {t | ∃ alert ∈ linkedAlerts db row.id, alert.lastSeen = t} row.lastSeen
  timeline : ListsLinked db (linkedAlerts db row.id) row.timeline

def Summarised (db : Database) : Prop :=
  ∀ row ∈ db.incidents, linkedAlerts db row.id ≠ [] → Summarises db row

def KeepsFirstSeen (env : Env) (db : Database) (alert : Alert) : Prop :=
  alert.ruleId = cloudFindingId → ∀ event, db.eventById alert.eventId = some event →
    ∀ row, Selected (findingMatch env event alert) db row → row.firstSeen ≤ alert.firstSeen

end Statement

section Rebuilt

variable {env : Env} {db : Database} {pending : List Alert} {id : Uuid}

theorem mem_linkedAlerts {alert : Alert} :
    alert ∈ linkedAlerts db id ↔ alert ∈ db.alerts ∧ (id, alert.id) ∈ db.links := by
  simp [linkedAlerts]

theorem alertsForIncident_perm : (db.alertsForIncident env id).Perm (linkedAlerts db id) :=
  select_perm _ _ _ _

theorem isLeast_of_min {t : Timestamp}
    (h : ((db.alertsForIncident env id).map (·.firstSeen)).min? = some t) :
    IsLeast {t | ∃ alert ∈ linkedAlerts db id, alert.firstSeen = t} t := by
  obtain ⟨hmem, hle⟩ := List.min?_eq_some_iff.mp h
  obtain ⟨a, ha, rfl⟩ := List.mem_map.mp hmem
  refine ⟨⟨a, alertsForIncident_perm.mem_iff.mp ha, rfl⟩, ?_⟩
  rintro u ⟨b, hb, rfl⟩
  exact hle _ (List.mem_map_of_mem (alertsForIncident_perm.mem_iff.mpr hb))

theorem isGreatest_of_max {t : Timestamp}
    (h : ((db.alertsForIncident env id).map (·.lastSeen)).max? = some t) :
    IsGreatest {t | ∃ alert ∈ linkedAlerts db id, alert.lastSeen = t} t := by
  obtain ⟨hmem, hle⟩ := List.max?_eq_some_iff.mp h
  obtain ⟨a, ha, rfl⟩ := List.mem_map.mp hmem
  refine ⟨⟨a, alertsForIncident_perm.mem_iff.mp ha, rfl⟩, ?_⟩
  rintro u ⟨b, hb, rfl⟩
  exact hle _ (List.mem_map_of_mem (alertsForIncident_perm.mem_iff.mpr hb))

def timelineEvents (db : Database) (alerts : List Alert) (id : Uuid) : Option EventRow :=
  (db.getByIds (alerts.map (·.eventId)) id).map (·.toEventRow)

theorem timelineEvents_of_mem {alerts : List Alert} {alert : Alert} (h : alert ∈ alerts) :
    timelineEvents db alerts alert.eventId = eventRowOf db alert := by
  simp only [timelineEvents, getByIds, eventRowOf, if_pos (List.mem_map_of_mem h)]

theorem timelineEvents_some (hc : Consistent db pending) {alerts : List Alert} {row : EventRow}
    (h : timelineEvents db alerts id = some row) :
    ∃ event ∈ db.events, event.id = id ∧ event.toEventRow = row := by
  obtain ⟨event, hget, rfl⟩ := Option.map_eq_some_iff.mp h
  unfold getByIds at hget
  split at hget
  · obtain ⟨hmem, hid⟩ := (eventById_iff hc).mp hget
    exact ⟨event, hmem, hid, rfl⟩
  · cases hget

theorem distinguished_timelineEvents (hc : Consistent db pending) (alerts : List Alert) :
    Distinguished (timelineEvents db alerts) := by
  intro i j row row' hrow hrow' hsame
  obtain ⟨event, hmem, _, rfl⟩ := timelineEvents_some hc hrow
  obtain ⟨event', hmem', _, rfl⟩ := timelineEvents_some hc hrow'
  rw [List.inj_on_of_nodup_map hc.eventIds_nodup hmem hmem' hsame]

theorem eventsOf_nodup (hc : Consistent db pending) (alerts : List Alert) :
    ((eventsOf db alerts).map (·.toEventRow)).Nodup := by
  have hids : ((eventsOf db alerts).map (·.id)).Nodup :=
    (List.filter_sublist.map _).nodup hc.events_nodup
  refine List.Nodup.of_map (·.id) ?_
  rw [List.map_map]
  exact hids

theorem mem_eventsOf (hc : Consistent db pending) {alerts linked : List Alert}
    (hsame : ∀ a, a ∈ alerts ↔ a ∈ linked) (row : EventRow) :
    row ∈ (eventsOf db linked).map (·.toEventRow) ↔
      ∃ a ∈ alerts, timelineEvents db alerts a.eventId = some row := by
  constructor
  · intro h
    obtain ⟨event, hevent, rfl⟩ := List.mem_map.mp h
    obtain ⟨hmem, hin⟩ := List.mem_filter.mp hevent
    obtain ⟨a, ha, hid⟩ := List.mem_map.mp (of_decide_eq_true hin)
    have ha := (hsame a).mpr ha
    refine ⟨a, ha, ?_⟩
    rw [timelineEvents_of_mem ha, eventRowOf, hid, (eventById_iff hc).mpr ⟨hmem, rfl⟩]
    rfl
  · rintro ⟨a, ha, hrow⟩
    obtain ⟨event, hmem, hid, rfl⟩ := timelineEvents_some hc hrow
    refine List.mem_map_of_mem (List.mem_filter.mpr ⟨hmem, decide_eq_true ?_⟩)
    exact List.mem_map.mpr ⟨a, (hsame a).mp ha, hid.symm⟩

theorem listsLinked_of_entries {linked : List Alert} {entries : List TimelineEntry}
    (halerts : (ofType .alert entries).Perm
      (linked.map fun alert => alertEntry alert (eventRowOf db alert)))
    (hevents : (ofType .event entries).Perm
      ((eventsOf db linked).map fun event => eventEntry event.toEventRow)) :
    ListsLinked db linked (entries.map (·.toJson)) := by
  refine ⟨entries, rfl, halerts, hevents, lists_of_entries halerts ?_⟩
  rw [List.map_map]
  exact hevents

theorem listsLinked_rebuilt (hc : Consistent db pending) :
    ListsLinked db (linkedAlerts db id) (incidentTimeline db (db.alertsForIncident env id)) := by
  have hperm : (db.alertsForIncident env id).Perm (linkedAlerts db id) := alertsForIncident_perm
  have hmap : ((db.alertsForIncident env id).map fun alert =>
      alertEntry alert (timelineEvents db (db.alertsForIncident env id) alert.eventId)) =
      (db.alertsForIncident env id).map fun alert => alertEntry alert (eventRowOf db alert) :=
    List.map_congr_left fun a ha => by rw [timelineEvents_of_mem ha]
  have halerts := @timeline_alerts (timelineEvents db (db.alertsForIncident env id))
    (db.alertsForIncident env id)
  rw [hmap] at halerts
  have hevents := timeline_events (distinguished_timelineEvents hc _)
    (db.alertsForIncident env id) (eventsOf_nodup hc (linkedAlerts db id))
    (mem_eventsOf hc fun a => hperm.mem_iff)
  rw [List.map_map] at hevents
  exact listsLinked_of_entries (halerts.trans (hperm.map _)) hevents

end Rebuilt

section Unchanged

variable {db db' : Database} {row : Incident}

theorem summarises_of_same (hlinked : linkedAlerts db' row.id = linkedAlerts db row.id)
    (hevent : ∀ alert ∈ linkedAlerts db row.id, eventRowOf db' alert = eventRowOf db alert)
    (hevents : eventsOf db' (linkedAlerts db row.id) = eventsOf db (linkedAlerts db row.id))
    (h : Summarises db row) : Summarises db' row := by
  refine ⟨hlinked.symm ▸ h.first, hlinked.symm ▸ h.last, ?_⟩
  obtain ⟨entries, htimeline, halerts, hentries, _⟩ := h.timeline
  rw [hlinked, htimeline]
  refine listsLinked_of_entries ?_ (hevents.symm ▸ hentries)
  have hmap : ((linkedAlerts db row.id).map fun alert => alertEntry alert (eventRowOf db' alert)) =
      (linkedAlerts db row.id).map fun alert => alertEntry alert (eventRowOf db alert) :=
    List.map_congr_left fun a ha => by rw [hevent a ha]
  rw [hmap]
  exact halerts

theorem linkedAlerts_merged {merged merged' : Incident} {alertIds : List Uuid}
    (hm : Merged db db' merged merged' alertIds) {id : Uuid} (hne : id ≠ merged.id) :
    linkedAlerts db' id = linkedAlerts db id := by
  unfold linkedAlerts
  rw [hm.alerts]
  exact List.filter_congr fun a _ => by simp [hm.links_of_ne hne a.id]

theorem summarises_of_merged {merged merged' : Incident} {alertIds : List Uuid}
    (hm : Merged db db' merged merged' alertIds) (hne : row.id ≠ merged.id)
    (h : Summarises db row) : Summarises db' row := by
  refine summarises_of_same (linkedAlerts_merged hm hne) ?_ ?_ h
  · intro a _
    unfold eventRowOf eventById
    rw [hm.events]
  · unfold eventsOf
    rw [hm.events]

section Detect

variable {env : Env} {payload : EventCreate} {alerts : List Alert}

theorem linkedAlerts_detected (hc : Consistent db []) (hd : Detected env db payload db' alerts)
    (id : Uuid) : linkedAlerts db' id = linkedAlerts db id := by
  unfold linkedAlerts
  rw [hd.stored, hd.links, List.filter_append]
  have hnone : alerts.filter (fun a => decide ((id, a.id) ∈ db.links)) = [] := by
    refine List.filter_eq_nil_iff.mpr fun a ha hlink => ?_
    exact unlinked_of_detected hc hd ha id (of_decide_eq_true hlink)
  rw [hnone, List.append_nil]

theorem summarises_of_detected (hc : Consistent db []) (hd : Detected env db payload db' alerts)
    (h : Summarises db row) : Summarises db' row := by
  refine summarises_of_same (linkedAlerts_detected hc hd row.id) ?_ ?_ h
  · intro a ha
    rw [eventRowOf, eventById_detected hc hd (mem_linkedAlerts.mp ha).1]
    rfl
  · unfold eventsOf
    rw [hd.events, List.filter_append]
    have hnone : [normalizeEvent env db.nextId payload].filter
        (fun event => decide (event.id ∈ (linkedAlerts db row.id).map (·.eventId))) = [] := by
      refine List.filter_eq_nil_iff.mpr fun event hevent hin => ?_
      obtain ⟨a, ha, hid⟩ := List.mem_map.mp (of_decide_eq_true hin)
      obtain ⟨old, hold, hraised⟩ := hc.raised a (mem_linkedAlerts.mp ha).1
      have hlt := hc.events_lt old hold
      rw [← hraised.eventId, hid, List.mem_singleton.mp hevent] at hlt
      exact absurd hlt (lt_irrefl _)
    rw [hnone, List.append_nil]

end Detect

end Unchanged

section Preservation

variable {env : Env} {db db' : Database} {alert : Alert} {pending : List Alert}
  {row row' : Incident}

def SummaryInv (db : Database) : Prop :=
  Summarised db ∧
    ∀ row ∈ db.incidents, isFindingKey row.correlationKey → linkedAlerts db row.id ≠ []

theorem summaryInv_merged {alertIds : List Uuid} (hP : SummaryInv db)
    (hm : Merged db db' row row' alertIds) (hrow : Summarises db' row')
    (hfinding : isFindingKey row'.correlationKey → linkedAlerts db' row.id ≠ []) :
    SummaryInv db' := by
  constructor
  · intro r hr hlinked
    rcases (hm.mem r).mp hr with rfl | ⟨hr, hne⟩
    · exact hrow
    · rw [linkedAlerts_merged hm hne] at hlinked
      exact summarises_of_merged hm hne (hP.1 r hr hlinked)
  · intro r hr hkey
    rcases (hm.mem r).mp hr with rfl | ⟨hr, hne⟩
    · exact hm.id ▸ hfinding hkey
    · rw [linkedAlerts_merged hm hne]
      exact hP.2 r hr hkey

theorem isLeast_of_finding (hc : Consistent db (alert :: pending)) (hP : SummaryInv db)
    (hok : KeepsFirstSeen env db alert) (hrule : alert.ruleId = cloudFindingId) {event : Event}
    (hfound : db.eventById alert.eventId = some event)
    (hm : Merged db db' row row' [alert.id])
    (htarget : FindingTarget env db alert event row) :
    IsLeast {t | ∃ a ∈ linkedAlerts db' row.id, a.firstSeen = t} row.firstSeen := by
  have halert := hc.pending_stored alert List.mem_cons_self
  have hmem : ∀ a, a ∈ linkedAlerts db' row.id ↔ a ∈ linkedAlerts db row.id ∨ a = alert := by
    intro a
    rw [mem_linkedAlerts, mem_linkedAlerts, hm.alerts, hm.mem_links]
    constructor
    · rintro ⟨ha, hlink | ⟨_, hid⟩⟩
      · exact .inl ⟨ha, hlink⟩
      · exact .inr (eq_of_id hc.alerts_nodup ha halert (List.mem_singleton.mp hid))
    · rintro (⟨ha, hlink⟩ | rfl)
      · exact ⟨ha, .inl hlink⟩
      · exact ⟨halert, .inr ⟨rfl, List.mem_cons_self⟩⟩
  rcases htarget with hsel | ⟨_, score, _, hnew⟩
  · have hkey := isFindingKey_of_findingMatch hsel.2.1
    obtain ⟨⟨b, hb, hbt⟩, hlower⟩ := (hP.1 row hsel.1 (hP.2 row hsel.1 hkey)).first
    refine ⟨⟨b, (hmem b).mpr (.inl hb), hbt⟩, ?_⟩
    rintro t ⟨a, ha, rfl⟩
    rcases (hmem a).mp ha with ha | rfl
    · exact hlower ⟨a, ha, rfl⟩
    · exact hok hrule event hfound row hsel
  · have hid : row.id = db.nextId := by rw [hnew]; rfl
    have hfirst : row.firstSeen = alert.firstSeen := by rw [hnew]; rfl
    refine ⟨⟨alert, (hmem alert).mpr (.inr rfl), hfirst.symm⟩, ?_⟩
    rintro t ⟨a, ha, rfl⟩
    rcases (hmem a).mp ha with ha | rfl
    · have hin := hm.row_of_link hc (mem_linkedAlerts.mp ha).2
      have hlt := hc.incidents_lt row hin
      rw [hid] at hlt
      exact absurd hlt (lt_irrefl _)
    · exact le_of_eq hfirst

theorem summary_correlate (hc : Consistent db (alert :: pending)) (hP : SummaryInv db)
    (hok : KeepsFirstSeen env db alert) (h : Correlated env db alert db') : SummaryInv db' := by
  have hc' := consistent_correlated hc h
  cases h with
  | ignored _ _ same => exact same ▸ hP
  | credential row row' firstSeen lastSeen rule candidates merged target refresh first last =>
      have hid := merged.id
      refine summaryInv_merged hP merged ⟨?_, ?_, ?_⟩ ?_
      · rw [hid, refresh]
        exact isLeast_of_min first
      · rw [hid, refresh]
        exact isGreatest_of_max last
      · rw [hid, refresh]
        exact listsLinked_rebuilt hc'
      · intro hkey
        rw [refresh] at hkey
        exact absurd hkey (not_isFindingKey_of_isCredentialKey
          (isCredentialKey_buildCorrelationKey _ _))
  | finding event row row' scores topScore lastSeen rule found merged target refresh scored top
      last =>
      have hid := merged.id
      have hlinked : alert ∈ linkedAlerts db' row.id := by
        rw [mem_linkedAlerts, merged.alerts, merged.mem_links]
        exact ⟨hc.pending_stored alert List.mem_cons_self, .inr ⟨rfl, List.mem_cons_self⟩⟩
      refine summaryInv_merged hP merged ⟨?_, ?_, ?_⟩ fun _ => List.ne_nil_of_mem hlinked
      · rw [hid, refresh]
        exact isLeast_of_finding hc hP hok rule found merged target
      · rw [hid, refresh]
        exact isGreatest_of_max last
      · rw [hid, refresh]
        exact listsLinked_rebuilt hc'

theorem preserved_summary (env : Env) :
    Preserved env (KeepsFirstSeen env) fun db _ => SummaryInv db where
  detect := by
    intro db db' payload alerts hc hP hd
    constructor
    · intro r hr hlinked
      rw [hd.incidents] at hr
      rw [linkedAlerts_detected hc hd] at hlinked
      exact summarises_of_detected hc hd (hP.1 r hr hlinked)
    · intro r hr hkey
      rw [hd.incidents] at hr
      rw [linkedAlerts_detected hc hd]
      exact hP.2 r hr hkey
  correlate := fun hc hP hok h => summary_correlate hc hP hok h
  manual := by
    intro db payload hc hP
    constructor
    · intro r hr hlinked
      rcases mem_createManualIncident hr with hr | rfl
      · have hold := hP.1 r hr hlinked
        refine summarises_of_same ?_ ?_ ?_ hold
        · rfl
        · exact fun _ _ => rfl
        · rfl
      · obtain ⟨a, ha⟩ := List.exists_mem_of_ne_nil _ hlinked
        exact absurd (mem_linkedAlerts.mp ha).2 (hc.not_linked a.id)
    · intro r hr hkey
      rcases mem_createManualIncident hr with hr | rfl
      · exact hP.2 r hr hkey
      · exact absurd hkey (manualKey_not_finding payload db.nextId)

end Preservation

theorem incidents_summarise_alerts {env : Env} {db : Database}
    (h : Run (handle env) (correlationsMeet env (KeepsFirstSeen env)) Database.empty db) :
    Summarised db := by
  have hempty : SummaryInv Database.empty := by
    constructor <;> intro r hr <;> cases hr
  exact ((preserved_summary env).committed h hempty).2.1

section Decidable

instance (env : Env) (db : Database) (alert : Alert) : Decidable (KeepsFirstSeen env db alert) :=
  inferInstanceAs (Decidable (alert.ruleId = cloudFindingId →
    ∀ event ∈ db.eventById alert.eventId, ∀ row, Selected (findingMatch env event alert) db row →
      row.firstSeen ≤ alert.firstSeen))

end Decidable

def finding (eventId : String) (second : Int) (username sourceIp : Option String)
    (accountId providerId : String) : EventCreate :=
  telemetry eventId "cloud_finding" second username sourceIp
    [("account_id", .str accountId), ("provider_finding_id", .str providerId)]

theorem updates_summarised :
    ∃ db, Run (handle plainEnv) (correlationsMeet plainEnv (KeepsFirstSeen plainEnv))
        Database.empty db ∧
      (db.incidents.length = 2 ∧ db.links.length = 4) ∧ Summarised db := by
  have hany : (execWhile (handle plainEnv)
      (fun db request => decide (correlationsMeet plainEnv (KeepsFirstSeen plainEnv) db request))
      Database.empty [.createEventsBulk firstAttack,
        .createEvent (finding "opened" 10 none none "account" "finding"),
        .createEvent (finding "updated" 20 none none "account" "finding")]).any
        (fun db => decide (db.incidents.length = 2 ∧ db.links.length = 4)) = true := by
    decide
  obtain ⟨db, hrun, hdb⟩ := run_of_execWhile_any hany
  have hmeets := hrun.mono fun _ _ hok => of_decide_eq_true hok
  exact ⟨db, hmeets, of_decide_eq_true hdb, incidents_summarise_alerts hmeets⟩

theorem older_update_not_summarised :
    ∃ db, Run (handle plainEnv) (fun _ request => request.ingests = true) Database.empty db ∧
      ¬ Summarised db := by
  have hany : (execWhile (handle plainEnv) (fun _ request => request.ingests) Database.empty
      [.createEvent (finding "opened" 10 none none "account" "finding"),
        .createEvent (finding "updated" 9 none none "account" "finding")]).any
        (fun db => decide (∃ row ∈ db.incidents, ∃ alert ∈ linkedAlerts db row.id,
          alert.firstSeen < row.firstSeen)) = true := by
    decide
  obtain ⟨db, hrun, hdb⟩ := run_of_execWhile_any hany
  refine ⟨db, hrun, fun hsummarised => ?_⟩
  obtain ⟨row, hrow, alert, halert, hlt⟩ := of_decide_eq_true hdb
  have hleast := (hsummarised row hrow (List.ne_nil_of_mem halert)).first
  exact absurd (hleast.2 ⟨alert, halert, rfl⟩) (not_le.mpr hlt)

end Correlation

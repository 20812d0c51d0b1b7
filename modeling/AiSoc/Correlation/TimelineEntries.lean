import AiSoc.Correlation.Timeline

namespace Correlation

open Permissions (Uuid Timestamp)
open Investigation (EventRow)

def ofType (type : EntryType) (entries : List TimelineEntry) : List TimelineEntry :=
  entries.filter fun entry => entry.type = type

def TimelineEntry.alertAndTime (entry : TimelineEntry) : Option Uuid × Timestamp :=
  (entry.alertId, entry.timestamp)

def TimelineEntry.eventAndTime (entry : TimelineEntry) : Option String × Timestamp :=
  (entry.eventId, entry.timestamp)

structure Lists (entries : List TimelineEntry) (alerts : List Alert) (events : List EventRow) :
    Prop where
  alerts : ((ofType .alert entries).map TimelineEntry.alertAndTime).Perm
    (alerts.map fun alert => (some alert.id, alert.lastSeen))
  events : ((ofType .event entries).map TimelineEntry.eventAndTime).Perm
    (events.map fun event => (some event.eventId, event.timestamp))

def newEvents (eventsById : Uuid → Option EventRow) : List String → List Alert → List EventRow
  | _, [] => []
  | seen, alert :: alerts =>
      match eventsById alert.eventId with
      | some event =>
          if event.eventId ∈ seen then newEvents eventsById seen alerts
          else event :: newEvents eventsById (event.eventId :: seen) alerts
      | none => newEvents eventsById seen alerts

variable {eventsById : Uuid → Option EventRow}

theorem lists_of_entries {entries : List TimelineEntry} {alerts : List Alert}
    {events : List EventRow} {found : Alert → Option EventRow}
    (halerts : (ofType .alert entries).Perm (alerts.map fun alert => alertEntry alert (found alert)))
    (hevents : (ofType .event entries).Perm (events.map eventEntry)) :
    Lists entries alerts events where
  alerts := by
    have hmap := halerts.map TimelineEntry.alertAndTime
    rwa [List.map_map] at hmap
  events := by
    have hmap := hevents.map TimelineEntry.eventAndTime
    rwa [List.map_map] at hmap

theorem alerts_of_timelineEntries (eventsById : Uuid → Option EventRow) (seen : List String)
    (alerts : List Alert) :
    ofType .alert (timelineEntries eventsById seen alerts) =
      alerts.map fun alert => alertEntry alert (eventsById alert.eventId) := by
  induction alerts generalizing seen with
  | nil => rfl
  | cons alert alerts ih =>
      simp only [ofType, timelineEntries, List.map_cons] at ih ⊢
      cases hevent : eventsById alert.eventId with
      | none => simp [alertEntry, ih]
      | some event =>
          simp only
          split <;> simp [alertEntry, eventEntry, ih]

theorem events_of_timelineEntries (eventsById : Uuid → Option EventRow) (seen : List String)
    (alerts : List Alert) :
    ofType .event (timelineEntries eventsById seen alerts) =
      (newEvents eventsById seen alerts).map eventEntry := by
  induction alerts generalizing seen with
  | nil => rfl
  | cons alert alerts ih =>
      simp only [ofType, timelineEntries, newEvents] at ih ⊢
      cases hevent : eventsById alert.eventId with
      | none => simp [alertEntry, ih]
      | some event =>
          simp only
          split <;> simp [alertEntry, eventEntry, ih]

theorem newEvents_not_seen {seen : List String} {alerts : List Alert} {event : EventRow}
    (h : event ∈ newEvents eventsById seen alerts) : event.eventId ∉ seen := by
  induction alerts generalizing seen with
  | nil => cases h
  | cons alert alerts ih =>
      simp only [newEvents] at h
      split at h
      · split at h
        · exact ih h
        · rename_i first _ hnew
          rcases List.mem_cons.mp h with rfl | h
          · exact hnew
          · exact fun hin => ih h (List.mem_cons_of_mem _ hin)
      · exact ih h

theorem nodup_newEvents (seen : List String) (alerts : List Alert) :
    ((newEvents eventsById seen alerts).map (·.eventId)).Nodup := by
  induction alerts generalizing seen with
  | nil => exact List.nodup_nil
  | cons alert alerts ih =>
      simp only [newEvents]
      split
      · split
        · exact ih seen
        · rename_i first _ _
          refine List.nodup_cons.mpr ⟨fun hin => ?_, ih _⟩
          obtain ⟨event, hevent, hid⟩ := List.mem_map.mp hin
          exact newEvents_not_seen hevent (hid ▸ List.mem_cons_self)
      · exact ih seen

def Distinguished (eventsById : Uuid → Option EventRow) : Prop :=
  ∀ id id' event event', eventsById id = some event → eventsById id' = some event' →
    event.eventId = event'.eventId → event = event'

theorem mem_newEvents (hd : Distinguished eventsById) {seen : List String} {alerts : List Alert}
    {event : EventRow} : event ∈ newEvents eventsById seen alerts ↔
      event.eventId ∉ seen ∧ ∃ alert ∈ alerts, eventsById alert.eventId = some event := by
  constructor
  · intro h
    refine ⟨newEvents_not_seen h, ?_⟩
    induction alerts generalizing seen with
    | nil => cases h
    | cons alert alerts ih =>
        simp only [newEvents] at h
        split at h
        · rename_i first hfirst
          split at h
          · obtain ⟨a, ha, hevent⟩ := ih h
            exact ⟨a, List.mem_cons_of_mem _ ha, hevent⟩
          · rcases List.mem_cons.mp h with rfl | h
            · exact ⟨alert, List.mem_cons_self, hfirst⟩
            · obtain ⟨a, ha, hevent⟩ := ih h
              exact ⟨a, List.mem_cons_of_mem _ ha, hevent⟩
        · obtain ⟨a, ha, hevent⟩ := ih h
          exact ⟨a, List.mem_cons_of_mem _ ha, hevent⟩
  · rintro ⟨hnew, a, ha, hevent⟩
    induction alerts generalizing seen with
    | nil => cases ha
    | cons alert alerts ih =>
        simp only [newEvents]
        rcases List.mem_cons.mp ha with rfl | ha
        · simp only [hevent, if_neg hnew]
          exact List.mem_cons_self
        · split
          · rename_i first hfirst
            split
            · exact ih hnew ha
            · by_cases hsame : event.eventId = first.eventId
              · rw [hd _ _ _ _ hevent hfirst hsame]
                exact List.mem_cons_self
              · refine List.mem_cons_of_mem _ (ih ?_ ha)
                simp [hsame, hnew]
          · exact ih hnew ha

theorem timeline_perm (eventsById : Uuid → Option EventRow) (alerts : List Alert) :
    (buildIncidentTimeline alerts eventsById).Perm
      (timelineEntries eventsById [] (alerts.insertionSort alertBefore)) :=
  List.perm_insertionSort _ _

theorem timeline_alerts (alerts : List Alert) :
    (ofType .alert (buildIncidentTimeline alerts eventsById)).Perm
      (alerts.map fun alert => alertEntry alert (eventsById alert.eventId)) := by
  have hperm := (timeline_perm eventsById alerts).filter
    fun entry => entry.type = .alert
  have halerts := alerts_of_timelineEntries eventsById []
    (alerts.insertionSort alertBefore)
  rw [ofType] at halerts
  rw [halerts] at hperm
  exact hperm.trans ((List.perm_insertionSort _ _).map _)

theorem timeline_events (hd : Distinguished eventsById) (alerts : List Alert)
    {rows : List EventRow} (hn : rows.Nodup)
    (hrows : ∀ event, event ∈ rows ↔ ∃ alert ∈ alerts, eventsById alert.eventId = some event) :
    (ofType .event (buildIncidentTimeline alerts eventsById)).Perm (rows.map eventEntry) := by
  have hperm := (timeline_perm eventsById alerts).filter
    fun entry => entry.type = .event
  have hevents := events_of_timelineEntries eventsById []
    (alerts.insertionSort alertBefore)
  rw [ofType] at hevents
  rw [hevents] at hperm
  refine hperm.trans (List.Perm.map _ ?_)
  refine (List.perm_ext_iff_of_nodup (List.Nodup.of_map _ (nodup_newEvents _ _)) hn).mpr ?_
  intro event
  rw [mem_newEvents hd, hrows]
  simp

end Correlation

import AiSoc.Correlation.TimelineEntries
import AiSoc.Library.DatetimeOrder

namespace Correlation

open Permissions (Uuid Timestamp)
open Investigation (EventRow)
open PyDatetime

def InCalendar (t : Timestamp) : Prop := minimum ≤ t ∧ t ≤ maximum

def Chronological (a b : TimelineEntry) : Prop :=
  a.timestamp < b.timestamp ∨
    a.timestamp = b.timestamp ∧ (a.type = .event → b.type = .event)

theorem typeValue_le {a b : EntryType} : a.value ≤ b.value ↔ (a = .event → b = .event) := by
  cases a <;> cases b <;> decide

theorem entryBefore_total (a b : TimelineEntry) : entryBefore a b ∨ entryBefore b a := by
  rcases lt_trichotomy (isoformat a.timestamp) (isoformat b.timestamp) with hless | hsame | hless
  · exact .inl (.inl hless)
  · rcases le_total a.type.value b.type.value with hle | hle
    · exact .inl (.inr ⟨hsame, hle⟩)
    · exact .inr (.inr ⟨hsame.symm, hle⟩)
  · exact .inr (.inl hless)

theorem entryBefore_trans {a b c : TimelineEntry} (hab : entryBefore a b) (hbc : entryBefore b c) :
    entryBefore a c := by
  rcases hab with hab | ⟨hab, htype⟩
  · rcases hbc with hbc | ⟨hbc, _⟩
    · exact .inl (lt_trans hab hbc)
    · exact .inl (lt_of_lt_of_eq hab hbc)
  · rcases hbc with hbc | ⟨hbc, htype'⟩
    · exact .inl (lt_of_eq_of_lt hab hbc)
    · exact .inr ⟨hab.trans hbc, le_trans htype htype'⟩

instance : Std.Total entryBefore := ⟨entryBefore_total⟩

instance : IsTrans TimelineEntry entryBefore := ⟨fun _ _ _ => entryBefore_trans⟩

theorem chronological_of_entryBefore {a b : TimelineEntry} (ha : InCalendar a.timestamp)
    (hb : InCalendar b.timestamp) (h : entryBefore a b) : Chronological a b := by
  rcases h with htexts | ⟨htexts, htype⟩
  · exact .inl ((isoformat_lt_iff ha hb).mp htexts)
  · exact .inr ⟨isoformat_inj ha hb htexts, typeValue_le.mp htype⟩

variable {eventsById : Uuid → Option EventRow}

theorem timelineEntries_timestamp {seen : List String} {alerts : List Alert}
    {entry : TimelineEntry} (h : entry ∈ timelineEntries eventsById seen alerts) :
    ∃ alert ∈ alerts, entry.timestamp = alert.lastSeen ∨
      ∃ event, eventsById alert.eventId = some event ∧ entry.timestamp = event.timestamp := by
  induction alerts generalizing seen with
  | nil => cases h
  | cons alert alerts ih =>
      have hrest : ∀ {seen}, entry ∈ timelineEntries eventsById seen alerts →
          ∃ alert' ∈ alert :: alerts, entry.timestamp = alert'.lastSeen ∨
            ∃ event, eventsById alert'.eventId = some event ∧
              entry.timestamp = event.timestamp := by
        intro seen hin
        obtain ⟨alert', halert, hentry⟩ := ih hin
        exact ⟨alert', List.mem_cons_of_mem _ halert, hentry⟩
      simp only [timelineEntries] at h
      split at h
      · rename_i event hevent
        split at h
        · rcases List.mem_cons.mp h with rfl | hin
          · exact ⟨alert, List.mem_cons_self, .inl rfl⟩
          · exact hrest hin
        · rcases List.mem_cons.mp h with rfl | hin
          · exact ⟨alert, List.mem_cons_self, .inr ⟨event, hevent, rfl⟩⟩
          · rcases List.mem_cons.mp hin with rfl | hin
            · exact ⟨alert, List.mem_cons_self, .inl rfl⟩
            · exact hrest hin
      · rcases List.mem_cons.mp h with rfl | hin
        · exact ⟨alert, List.mem_cons_self, .inl rfl⟩
        · exact hrest hin

theorem timeline_inCalendar {alerts : List Alert}
    (halerts : ∀ alert ∈ alerts, InCalendar alert.lastSeen)
    (hevents : ∀ id event, eventsById id = some event → InCalendar event.timestamp)
    {entry : TimelineEntry} (h : entry ∈ buildIncidentTimeline alerts eventsById) :
    InCalendar entry.timestamp := by
  have hentries := (timeline_perm eventsById alerts).mem_iff.mp h
  obtain ⟨alert, halert, hsame | ⟨event, hevent, hsame⟩⟩ := timelineEntries_timestamp hentries
  · rw [hsame]
    exact halerts alert ((List.perm_insertionSort _ _).mem_iff.mp halert)
  · rw [hsame]
    exact hevents _ event hevent

theorem timeline_chronological {alerts : List Alert}
    (halerts : ∀ alert ∈ alerts, InCalendar alert.lastSeen)
    (hevents : ∀ id event, eventsById id = some event → InCalendar event.timestamp) :
    (buildIncidentTimeline alerts eventsById).Pairwise Chronological := by
  have hsorted := List.pairwise_insertionSort entryBefore
    (timelineEntries eventsById [] (alerts.insertionSort alertBefore))
  refine List.Pairwise.imp_of_mem ?_ hsorted
  intro a b ha hb hbefore
  exact chronological_of_entryBefore (timeline_inCalendar halerts hevents ha)
    (timeline_inCalendar halerts hevents hb) hbefore

def enteredEvents (alerts : List Alert) (eventsById : Uuid → Option EventRow) : List EventRow :=
  newEvents eventsById [] (alerts.insertionSort alertBefore)

theorem timeline_eventEntries (alerts : List Alert) (eventsById : Uuid → Option EventRow) :
    (ofType .event (buildIncidentTimeline alerts eventsById)).Perm
      ((enteredEvents alerts eventsById).map eventEntry) := by
  rw [enteredEvents, ← events_of_timelineEntries]
  exact (timeline_perm eventsById alerts).filter _

theorem found_of_mem_newEvents {seen : List String} {alerts : List Alert} {event : EventRow}
    (h : event ∈ newEvents eventsById seen alerts) :
    ∃ alert ∈ alerts, eventsById alert.eventId = some event := by
  induction alerts generalizing seen with
  | nil => cases h
  | cons alert alerts ih =>
      simp only [newEvents] at h
      split at h
      · rename_i first hfirst
        split at h
        · obtain ⟨a, ha, hevent⟩ := ih h
          exact ⟨a, List.mem_cons_of_mem _ ha, hevent⟩
        · rcases List.mem_cons.mp h with rfl | h
          · exact ⟨alert, List.mem_cons_self, hfirst⟩
          · obtain ⟨a, ha, hevent⟩ := ih h
            exact ⟨a, List.mem_cons_of_mem _ ha, hevent⟩
      · obtain ⟨a, ha, hevent⟩ := ih h
        exact ⟨a, List.mem_cons_of_mem _ ha, hevent⟩

theorem newEvents_complete {seen : List String} {alerts : List Alert} {alert : Alert}
    {event : EventRow} (ha : alert ∈ alerts) (hevent : eventsById alert.eventId = some event)
    (hnew : event.eventId ∉ seen) :
    event.eventId ∈ (newEvents eventsById seen alerts).map (·.eventId) := by
  induction alerts generalizing seen with
  | nil => cases ha
  | cons first alerts ih =>
      simp only [newEvents]
      rcases List.mem_cons.mp ha with rfl | ha
      · simp only [hevent, if_neg hnew]
        exact List.mem_cons_self
      · split
        · rename_i found _
          split
          · exact ih ha hnew
          · by_cases hsame : event.eventId = found.eventId
            · rw [List.map_cons, hsame]
              exact List.mem_cons_self
            · refine List.mem_cons_of_mem _ (ih ha ?_)
              intro hin
              rcases List.mem_cons.mp hin with hfound | hin
              · exact hsame hfound
              · exact hnew hin
        · exact ih ha hnew

theorem mem_enteredEvents {alerts : List Alert} {event : EventRow}
    (h : event ∈ enteredEvents alerts eventsById) :
    ∃ alert ∈ alerts, eventsById alert.eventId = some event := by
  obtain ⟨alert, halert, hevent⟩ := found_of_mem_newEvents h
  exact ⟨alert, (List.perm_insertionSort _ _).mem_iff.mp halert, hevent⟩

theorem enteredEvents_complete {alerts : List Alert} {alert : Alert} {event : EventRow}
    (ha : alert ∈ alerts) (hevent : eventsById alert.eventId = some event) :
    event.eventId ∈ (enteredEvents alerts eventsById).map (·.eventId) :=
  newEvents_complete ((List.perm_insertionSort _ _).mem_iff.mpr ha) hevent List.not_mem_nil

theorem enteredEvents_perm (hd : Distinguished eventsById) {alerts alerts' : List Alert}
    (hperm : alerts.Perm alerts') :
    (enteredEvents alerts eventsById).Perm (enteredEvents alerts' eventsById) := by
  refine (List.perm_ext_iff_of_nodup (List.Nodup.of_map _ (nodup_newEvents _ _))
    (List.Nodup.of_map _ (nodup_newEvents _ _))).mpr ?_
  intro event
  simp only [mem_newEvents hd, List.mem_insertionSort, hperm.mem_iff]

theorem perm_of_types {entries entries' : List TimelineEntry}
    (halerts : (ofType .alert entries).Perm (ofType .alert entries'))
    (hevents : (ofType .event entries).Perm (ofType .event entries')) :
    entries.Perm entries' := by
  have hsplit : ∀ entries : List TimelineEntry,
      (ofType .alert entries ++ ofType .event entries).Perm entries := by
    intro entries
    have hother : ofType .event entries =
        entries.filter fun entry => !decide (entry.type = .alert) := by
      refine List.filter_congr fun entry _ => ?_
      cases entry.type <;> rfl
    rw [hother, ofType]
    exact List.filter_append_perm _ _
  exact (hsplit entries).symm.trans ((halerts.append hevents).trans (hsplit entries'))

theorem timeline_perm_of_alerts (hd : Distinguished eventsById) {alerts alerts' : List Alert}
    (hperm : alerts.Perm alerts') :
    (buildIncidentTimeline alerts eventsById).Perm (buildIncidentTimeline alerts' eventsById) := by
  refine perm_of_types ?_ ?_
  · exact (timeline_alerts alerts).trans ((hperm.map _).trans (timeline_alerts alerts').symm)
  · exact (timeline_eventEntries _ _).trans (((enteredEvents_perm hd hperm).map _).trans
      (timeline_eventEntries _ _).symm)

theorem timeline_complete_and_chronological (alerts : List Alert)
    (eventsById : Uuid → Option EventRow)
    (halerts : ∀ alert ∈ alerts, InCalendar alert.lastSeen)
    (hevents : ∀ id event, eventsById id = some event → InCalendar event.timestamp) :
    (ofType .alert (buildIncidentTimeline alerts eventsById)).Perm
      (alerts.map fun alert => alertEntry alert (eventsById alert.eventId)) ∧
    (∃ events : List EventRow,
      Lists (buildIncidentTimeline alerts eventsById) alerts events ∧
      (ofType .event (buildIncidentTimeline alerts eventsById)).Perm (events.map eventEntry) ∧
      (events.map (·.eventId)).Nodup ∧
      (∀ event ∈ events, ∃ alert ∈ alerts, eventsById alert.eventId = some event) ∧
      ∀ alert ∈ alerts, ∀ event, eventsById alert.eventId = some event →
        event.eventId ∈ events.map (·.eventId)) ∧
    (buildIncidentTimeline alerts eventsById).Pairwise Chronological ∧
    (Distinguished eventsById → ∀ alerts' : List Alert, alerts.Perm alerts' →
      (buildIncidentTimeline alerts eventsById).Perm
        (buildIncidentTimeline alerts' eventsById)) := by
  refine ⟨timeline_alerts alerts, ?_, timeline_chronological halerts hevents, ?_⟩
  · refine ⟨enteredEvents alerts eventsById,
      lists_of_entries (timeline_alerts alerts) (timeline_eventEntries _ _),
      timeline_eventEntries _ _, nodup_newEvents _ _, ?_, ?_⟩
    · intro event hevent
      exact mem_enteredEvents hevent
    · intro alert halert event hevent
      exact enteredEvents_complete halert hevent
  · intro hd alerts' hperm
    exact timeline_perm_of_alerts hd hperm

def loginEvent : EventRow :=
  { id := 7, eventId := "evt-7", timestamp := 1700000000000000, source := "auth",
    sourceType := "log", eventType := "login", category := "authentication", severity := none,
    username := some "ana", sourceIp := some "203.0.113.7", destinationIp := none,
    hostname := none, action := none, status := some "failure", resource := none,
    bytesSent := none, bytesReceived := none }

def loginAlert (id : Uuid) (lastSeen : Timestamp) : Alert :=
  { id := id, eventId := 7, ruleId := "brute_force", title := "Brute force", description := "",
    severity := "high", confidence := ⟨false, 9, -1, PyFloat.normal_point_nine⟩,
    sourceIp := some "203.0.113.7", username := some "ana", firstSeen := 1700000000000000,
    lastSeen := lastSeen, evidence := .obj [], createdAt := 1700000001000000 }

def loginEvents (id : Uuid) : Option EventRow :=
  if id = 7 then some loginEvent else none

theorem login_timeline_complete_and_chronological :
    (ofType .alert (buildIncidentTimeline
      [loginAlert 1 1700000000500000, loginAlert 2 1700000000000000] loginEvents)).Perm
      [alertEntry (loginAlert 1 1700000000500000) (some loginEvent),
        alertEntry (loginAlert 2 1700000000000000) (some loginEvent)] ∧
    (buildIncidentTimeline
      [loginAlert 1 1700000000500000, loginAlert 2 1700000000000000] loginEvents).Pairwise
        Chronological ∧
    (buildIncidentTimeline
      [loginAlert 1 1700000000500000, loginAlert 2 1700000000000000] loginEvents).Perm
      (buildIncidentTimeline
        [loginAlert 2 1700000000000000, loginAlert 1 1700000000500000] loginEvents) := by
  have hcalendar : InCalendar 1700000000000000 ∧ InCalendar 1700000000500000 := by
    unfold InCalendar minimum maximum
    decide
  have hevent : ∀ id event, loginEvents id = some event → event = loginEvent := by
    intro id event hfound
    unfold loginEvents at hfound
    split at hfound
    · exact (Option.some.inj hfound).symm
    · cases hfound
  have halerts : ∀ alert ∈ [loginAlert 1 1700000000500000, loginAlert 2 1700000000000000],
      InCalendar alert.lastSeen := by
    intro alert halert
    rcases List.mem_cons.mp halert with rfl | halert
    · exact hcalendar.2
    · rw [List.mem_singleton.mp halert]
      exact hcalendar.1
  have hevents : ∀ id event, loginEvents id = some event → InCalendar event.timestamp := by
    intro id event hfound
    rw [hevent id event hfound]
    exact hcalendar.1
  have hd : Distinguished loginEvents := by
    intro id id' event event' hfound hfound' _
    rw [hevent id event hfound, hevent id' event' hfound']
  obtain ⟨hperm, _, hsorted, horder⟩ :=
    timeline_complete_and_chronological _ loginEvents halerts hevents
  exact ⟨hperm, hsorted, horder hd _ (List.Perm.swap _ _ [])⟩

end Correlation

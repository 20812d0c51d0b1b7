import AiSoc.Correlation.Restamp

namespace Correlation

open Permissions (Uuid Timestamp)
open PyStr Database Query

section Paths

abbrev Item := Uuid × EventCreate

def normalize (item : Item) : EventCreate :=
  { item.2 with
    eventId := some (orDefault item.2.eventId ("evt_" ++ String.ofList (hexText 32 item.1))) }

-- everything is normalized before the first event is stored
def bulk (env : Env) (db : Database) (items : List Item) : Option Database :=
  createEventsBulk env db (items.map normalize)

-- one transaction each; the flag tells whether every call returned
def singles (env : Env) : Database → List Item → Database × Bool
  | db, [] => (db, true)
  | db, item :: items =>
      match ingestEvent env db (normalize item) with
      | some db' => singles env db' items
      | none => ((singles env db items).1, false)

-- equal up to the wall clock column of the alerts
structure SameCommit (db db' : Database) : Prop where
  events : db.events = db'.events
  alerts : db.alerts.map (·.toAlertRow) = db'.alerts.map (·.toAlertRow)
  incidents : db.incidents = db'.incidents
  links : db.links = db'.links

structure Ticks (env : Env) (db : Database) : Prop where
  fresh : ∀ alert ∈ db.alerts, alert.id < db.nextId
  past : ∀ alert ∈ db.alerts, ∀ id, db.nextId ≤ id → alert.createdAt < env.clock id
  onward : ∀ id id', db.nextId ≤ id → id < id' → env.clock id < env.clock id'

end Paths

section Stamps

variable {env : Env} {clock : Uuid → Timestamp} {first : Uuid} {db db' : Database}

def stampFrom (first : Uuid) (clock : Uuid → Timestamp) (alert : Alert) : Timestamp :=
  if alert.id < first then alert.createdAt else clock alert.id

structure Stamped (env : Env) (clock : Uuid → Timestamp) (first : Uuid) (db : Database) :
    Prop where
  reached : first ≤ db.nextId
  alerts : ∀ alert ∈ db.alerts,
    (alert.id < first ∧
      ∀ id, first ≤ id → alert.createdAt < env.clock id ∧ alert.createdAt < clock id) ∨
    (first ≤ alert.id ∧ alert.createdAt = env.clock alert.id)

structure Onward (env : Env) (clock : Uuid → Timestamp) (first : Uuid) : Prop where
  bulk : ∀ id id', first ≤ id → id < id' → env.clock id < env.clock id'
  single : ∀ id id', first ≤ id → id < id' → clock id < clock id'

theorem clock_le_iff {tick : Uuid → Timestamp} (h : ∀ id id', first ≤ id → id < id' →
    tick id < tick id') {id id' : Uuid} (hid : first ≤ id) (hid' : first ≤ id') :
    tick id ≤ tick id' ↔ id ≤ id' := by
  constructor
  · intro hle
    refine Nat.le_of_not_lt fun hlt => ?_
    have hback := h id' id hid' hlt
    lia
  · intro hle
    rcases Nat.lt_or_eq_of_le hle with hlt | rfl
    · exact le_of_lt (h id id' hid hlt)
    · exact le_refl _

theorem ordered_of_stamped (honward : Onward env clock first) (h : Stamped env clock first db) :
    Ordered (stampFrom first clock) db.alerts := by
  intro a ha b hb
  have hcreated : a.createdAt ≤ b.createdAt ↔
      stampFrom first clock a ≤ stampFrom first clock b := by
    unfold stampFrom
    rcases h.alerts a ha with ⟨hold, holder⟩ | ⟨hnew, hstamp⟩
    · rw [if_pos hold]
      rcases h.alerts b hb with ⟨hold', _⟩ | ⟨hnew', hstamp'⟩
      · rw [if_pos hold']
      · rw [if_neg (Nat.not_lt_of_le hnew'), hstamp']
        obtain ⟨hbulk, hsingle⟩ := holder b.id hnew'
        exact ⟨fun _ => le_of_lt hsingle, fun _ => le_of_lt hbulk⟩
    · rw [if_neg (Nat.not_lt_of_le hnew), hstamp]
      rcases h.alerts b hb with ⟨hold', holder'⟩ | ⟨hnew', hstamp'⟩
      · rw [if_pos hold']
        obtain ⟨hbulk, hsingle⟩ := holder' a.id hnew
        exact ⟨fun hle => absurd hle (not_le_of_gt hbulk),
          fun hle => absurd hle (not_le_of_gt hsingle)⟩
      · rw [if_neg (Nat.not_lt_of_le hnew'), hstamp', clock_le_iff honward.bulk hnew hnew',
          clock_le_iff honward.single hnew hnew']
  have hsame : alertBefore (restamp (stampFrom first clock) a) (restamp (stampFrom first clock) b) ↔
      (a.firstSeen < b.firstSeen ∨ a.firstSeen = b.firstSeen ∧
        stampFrom first clock a ≤ stampFrom first clock b) := Iff.rfl
  rw [hsame, ← hcreated]
  rfl

theorem restamp_start (hfresh : ∀ alert ∈ db.alerts, alert.id < db.nextId) :
    db.restamp (stampFrom db.nextId clock) = db := by
  have hsame : ∀ alert ∈ db.alerts, restamp (stampFrom db.nextId clock) alert = alert := by
    intro alert halert
    have hstamp : stampFrom db.nextId clock alert = alert.createdAt :=
      if_pos (hfresh alert halert)
    rw [restamp, hstamp]
  have halerts : db.alerts.map (restamp (stampFrom db.nextId clock)) = db.alerts :=
    (List.map_congr_left hsame).trans (List.map_id db.alerts)
  rw [Database.restamp, halerts]

theorem buildAlerts_restamp {event : Event} {id : Uuid} (hid : first ≤ id)
    (results : List DetectionResult) : buildAlerts (env.withClock clock) event id results =
      (buildAlerts env event id results).map (restamp (stampFrom first clock)) := by
  induction results generalizing id with
  | nil => rfl
  | cons result results ih =>
      have hstamp : stampFrom first clock (buildAlert event result id (env.clock id)) = clock id :=
        if_neg (Nat.not_lt_of_le hid)
      have hbuilt : restamp (stampFrom first clock) (buildAlert event result id (env.clock id)) =
          buildAlert event result id (clock id) := by
        rw [restamp, hstamp]
        rfl
      rw [buildAlerts, buildAlerts, List.map_cons, hbuilt, ih (Nat.le_succ_of_le hid)]
      rfl

theorem stamp_of_buildAlerts {event : Event} {id : Uuid} {results : List DetectionResult}
    {alert : Alert} (h : alert ∈ buildAlerts env event id results) :
    id ≤ alert.id ∧ alert.createdAt = env.clock alert.id := by
  induction results generalizing id with
  | nil => cases h
  | cons result results ih =>
      rcases List.mem_cons.1 h with rfl | h
      · exact ⟨Nat.le_refl id, rfl⟩
      · obtain ⟨hid, hstamp⟩ := ih h
        exact ⟨Nat.le_of_succ_le hid, hstamp⟩

theorem createAlerts_restamp {stamp : Alert → Timestamp} (alerts : List Alert) :
    (db.restamp stamp).createAlerts (alerts.map (restamp stamp)) =
      (db.createAlerts alerts).restamp stamp := by
  unfold Database.createAlerts Database.restamp
  rw [List.map_append, List.length_map]

theorem runDetection_restamp (hfirst : first ≤ db.nextId) (payload : EventCreate) :
    runDetection (env.withClock clock) (db.restamp (stampFrom first clock)) payload =
      (runDetection env db payload).map fun p =>
        (p.1.restamp (stampFrom first clock), p.2.map (restamp (stampFrom first clock))) := by
  have hcreate : ∀ event, (db.restamp (stampFrom first clock)).createEvent event =
      (db.createEvent event).map (Database.restamp (stampFrom first clock)) := by
    intro event
    unfold Database.createEvent
    have hevents : (db.restamp (stampFrom first clock)).events = db.events := rfl
    rw [hevents]
    split <;> rfl
  have hevent : normalizeEvent (env.withClock clock)
      (db.restamp (stampFrom first clock)).nextId payload = normalizeEvent env db.nextId payload :=
    rfl
  unfold runDetection
  simp only [hevent, hcreate]
  cases hdb : db.createEvent (normalizeEvent env db.nextId payload) with
  | none => rfl
  | some db1 =>
      have hnext : first ≤ db1.nextId := by
        unfold Database.createEvent at hdb
        split at hdb
        · cases hdb
        · cases hdb
          exact Nat.le_succ_of_le hfirst
      have hevaluate : evaluateEvent (env.withClock clock)
          (db1.restamp (stampFrom first clock)) (normalizeEvent env db.nextId payload) =
          evaluateEvent env db1 (normalizeEvent env db.nextId payload) := rfl
      simp only [Option.map_some, Option.bind_eq_bind, Option.bind_some, hevaluate]
      cases evaluateEvent env db1 (normalizeEvent env db.nextId payload) with
      | none => rfl
      | some results =>
          have hnextId : (db1.restamp (stampFrom first clock)).nextId = db1.nextId := rfl
          simp only [Option.bind_some, Option.map_some, hnextId]
          rw [buildAlerts_restamp hnext, createAlerts_restamp]

theorem stamped_runDetection {payload : EventCreate} {alerts : List Alert}
    (h : Stamped env clock first db) (hrun : runDetection env db payload = some (db', alerts)) :
    Stamped env clock first db' := by
  obtain ⟨db1, hdb1, hrun⟩ := Option.bind_eq_some_iff.1 hrun
  obtain ⟨results, _, hrun⟩ := Option.bind_eq_some_iff.1 hrun
  cases hrun
  unfold Database.createEvent at hdb1
  split at hdb1
  · cases hdb1
  · cases hdb1
    refine ⟨Nat.le_trans h.reached (by simp only [Database.createAlerts]; lia), ?_⟩
    intro alert halert
    rcases List.mem_append.1 halert with hold | hnew
    · exact h.alerts alert hold
    · obtain ⟨hid, hstamp⟩ := stamp_of_buildAlerts hnew
      exact .inr ⟨Nat.le_trans h.reached (Nat.le_of_succ_le hid), hstamp⟩

theorem nextId_le_of_correlateAlert {alert : Alert} (h : correlateAlert env db alert = some db') :
    db.nextId ≤ db'.nextId := by
  cases correlateAlert_cases h with
  | ignored _ _ same => rw [same]
  | credential _ _ _ _ _ _ merged => exact merged.nextId_le
  | finding _ _ _ _ _ _ _ _ merged => exact merged.nextId_le

theorem nextId_le_of_correlate {alerts : List Alert} (h : correlate env db alerts = some db') :
    db.nextId ≤ db'.nextId := by
  induction alerts generalizing db with
  | nil =>
      cases h
      exact Nat.le_refl _
  | cons alert alerts ih =>
      obtain ⟨db1, hfirst, hrest⟩ := Option.bind_eq_some_iff.1 h
      exact Nat.le_trans (nextId_le_of_correlateAlert hfirst) (ih hrest)

theorem stamped_ingestEvent {payload : EventCreate} (h : Stamped env clock first db)
    (hingest : ingestEvent env db payload = some db') : Stamped env clock first db' := by
  obtain ⟨⟨detected, alerts⟩, hdetect, hcorrelate⟩ := Option.bind_eq_some_iff.1 hingest
  have hdetected := stamped_runDetection h hdetect
  refine ⟨Nat.le_trans hdetected.reached (nextId_le_of_correlate hcorrelate), ?_⟩
  rw [(correlate_frame hcorrelate).2]
  exact hdetected.alerts

theorem ingestEvent_restamp (hscan : env.scan.Natural) (honward : Onward env clock first)
    (h : Stamped env clock first db) (payload : EventCreate) :
    ingestEvent (env.withClock clock) (db.restamp (stampFrom first clock)) payload =
      (ingestEvent env db payload).map (Database.restamp (stampFrom first clock)) := by
  unfold ingestEvent
  rw [runDetection_restamp h.reached]
  cases hdetect : runDetection env db payload with
  | none => rfl
  | some p =>
      have hdetected := stamped_runDetection h hdetect
      exact correlate_restamp hscan p.2 (ordered_of_stamped honward hdetected)

end Stamps

section Equivalence

variable {env : Env} {clock : Uuid → Timestamp} {first : Uuid}

theorem singles_of_bulk (hscan : env.scan.Natural) (honward : Onward env clock first)
    {db : Database} (items : List Item) (h : Stamped env clock first db) :
    (∀ db', bulk env db items = some db' →
      singles (env.withClock clock) (db.restamp (stampFrom first clock)) items =
        (db'.restamp (stampFrom first clock), true)) ∧
    (bulk env db items = none →
      (singles (env.withClock clock) (db.restamp (stampFrom first clock)) items).2 = false) := by
  induction items generalizing db with
  | nil =>
      constructor
      · intro db' hbulk
        cases hbulk
        rfl
      · intro hbulk
        cases hbulk
  | cons item items ih =>
      have hstep := ingestEvent_restamp hscan honward h (normalize item)
      have hbulk : bulk env db (item :: items) =
          (ingestEvent env db (normalize item)).bind fun db' => bulk env db' items := rfl
      rw [hbulk, singles, hstep]
      cases hingest : ingestEvent env db (normalize item) with
      | none =>
          constructor
          · intro db' hnone
            cases hnone
          · intro _
            rfl
      | some db1 => exact ih (stamped_ingestEvent h hingest)

theorem sameCommit_restamp (stamp : Alert → Timestamp) (db : Database) :
    SameCommit db (db.restamp stamp) :=
  ⟨rfl, (map_restamp stamp (·.toAlertRow) (fun _ => rfl) db.alerts).symm, rfl, rfl⟩

theorem bulk_repeats_singles (env : Env) (clock : Uuid → Timestamp) (db : Database)
    (items : List Item) (hscan : env.scan.Natural) (hbulk : Ticks env db)
    (hsingle : Ticks (env.withClock clock) db) :
    ((singles (env.withClock clock) db items).2 = true →
      ∃ db', bulk env db items = some db' ∧
        SameCommit db' (singles (env.withClock clock) db items).1) ∧
    ((singles (env.withClock clock) db items).2 = false → bulk env db items = none) := by
  have honward : Onward env clock db.nextId := ⟨hbulk.onward, hsingle.onward⟩
  have hstamped : Stamped env clock db.nextId db := by
    refine ⟨Nat.le_refl _, fun alert halert => .inl ⟨hbulk.fresh alert halert, ?_⟩⟩
    intro id hid
    exact ⟨hbulk.past alert halert id hid, hsingle.past alert halert id hid⟩
  obtain ⟨hsome, hnone⟩ := singles_of_bulk hscan honward items hstamped
  rw [restamp_start hbulk.fresh] at hsome hnone
  cases hresult : bulk env db items with
  | none =>
      have hflag := hnone hresult
      constructor
      · intro htrue
        rw [hflag] at htrue
        cases htrue
      · intro _
        rfl
  | some db' =>
      have hsingles := hsome db' hresult
      rw [hsingles]
      constructor
      · intro _
        exact ⟨db', rfl, sameCommit_restamp _ db'⟩
      · intro hfalse
        cases hfalse

def storedEvent : Database :=
  (ingestEvent plainEnv .empty (telemetry "1" "login_success" 0 none none [])).getD .empty

def storedAgain : List Item :=
  [(0, telemetry "0" "login_success" 1 none none []),
    (1, telemetry "1" "login_success" 2 none none [])]

def sharedAddress : List Item :=
  (attack tenIds "10" 0 100 (some "alice") (some "203.0.113.9") ++
    [telemetry "11" "login_success" 101 (some "bob") (some "203.0.113.9") []]).map fun payload =>
      (0, payload)

def backwards (id : Uuid) : Timestamp := -seconds id

theorem bulk_differs :
    ¬ SameCommit ((bulk plainEnv storedEvent storedAgain).getD storedEvent)
        (singles plainEnv storedEvent storedAgain).1 ∧
      ¬ SameCommit ((bulk plainEnv .empty sharedAddress).getD .empty)
        (singles (plainEnv.withClock backwards) .empty sharedAddress).1 := by
  constructor
  · intro h
    have hevents := congrArg List.length h.events
    revert hevents
    decide
  · intro h
    have husernames := congrArg (List.map (·.primaryUsername)) h.incidents
    revert husernames
    decide

theorem ticks_empty {tick : Uuid → Timestamp} (h : ∀ id id', id < id' → tick id < tick id') :
    Ticks (plainEnv.withClock tick) .empty :=
  ⟨nofun, nofun, fun id id' _ hlt => h id id' hlt⟩

theorem seconds_lt {n m : Int} (h : n < m) : seconds n < seconds m := by
  unfold seconds
  lia

theorem shared_address_repeats :
    ∃ db', bulk plainEnv .empty sharedAddress = some db' ∧
      SameCommit db'
        (singles (plainEnv.withClock fun id => seconds (2 * id)) .empty sharedAddress).1 := by
  have hbulk : Ticks plainEnv .empty :=
    ticks_empty fun id id' hlt => seconds_lt (by lia)
  have hsingle : Ticks (plainEnv.withClock fun id => seconds (2 * id)) .empty :=
    ticks_empty fun id id' hlt => seconds_lt (by lia)
  exact (bulk_repeats_singles plainEnv (fun id => seconds (2 * id)) .empty sharedAddress
    natural_inTableOrder hbulk hsingle).1 (by decide)

end Equivalence

end Correlation

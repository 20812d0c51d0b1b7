import AiSoc.Correlation.Restamp
import AiSoc.Events.FindingAdapter
import AiSoc.Events.Overflow

namespace Findings

open Correlation (Alert Database DetectionResult)
open Permissions (Timestamp)
open PyDatetime PyJson PyStr

section Batches

structure ASFFBatch where
  findings : List Obj
  sent : findings ≠ []
  atMost : findings.length ≤ 100

def activeFindings (py : PyText) : List Obj → Except String (List Obj)
  | [] => .ok []
  | finding :: findings => do
      let active ← isActiveFinding py finding
      let rest ← activeFindings py findings
      .ok (if active then finding :: rest else rest)

-- the activity of every finding comes before the conversion of the first
def convertFindings (env : Env) (findings : List Obj) : Except String (List FindingEvent) := do
  let active ← activeFindings env.text findings
  active.mapM (asffToEvent env)

def getByEventId (db : Database) (eventId : Option String) : Option Correlation.Event :=
  db.events.find? fun row => some row.eventId = eventId

def storedIds (db : Database) : List (Option String) :=
  db.events.map fun row => some row.eventId

def unseenFindings (db : Database) : List (Option String) → List FindingEvent → List FindingEvent
  | _, [] => []
  | seen, event :: events =>
      if event.eventId ∈ seen then unseenFindings db seen events
      else
        match getByEventId db event.eventId with
        | none => event :: unseenFindings db (event.eventId :: seen) events
        | some _ => unseenFindings db (event.eventId :: seen) events

def isActive (py : PyText) (finding : Obj) : Bool :=
  match isActiveFinding py finding with
  | .ok active => active
  | .error _ => false

def activeIdentities (py : PyText) (findings : List Obj) : List Identity :=
  (findings.filter (isActive py)).filterMap identityOf

end Batches

section Conversions

variable {env : Env} {py : PyText} {findings : List Obj}

theorem isActive_of_ok {finding : Obj} {active : Bool}
    (h : isActiveFinding py finding = .ok active) : isActive py finding = active := by
  rw [isActive, h]

theorem activeFindings_ok {active : List Obj} : activeFindings py findings = .ok active ↔
    (∀ finding ∈ findings, ∃ b, isActiveFinding py finding = .ok b) ∧
      active = findings.filter (isActive py) := by
  induction findings generalizing active with
  | nil =>
      constructor
      · intro h
        cases h
        exact ⟨nofun, rfl⟩
      · rintro ⟨_, rfl⟩
        rfl
  | cons finding findings ih =>
      rw [activeFindings, Except.bind_ok_iff, List.forall_mem_cons]
      constructor
      · rintro ⟨b, hb, h⟩
        obtain ⟨rest, hrest, h⟩ := Except.bind_ok_iff.mp h
        obtain ⟨hall, rfl⟩ := ih.mp hrest
        cases h
        refine ⟨⟨⟨b, hb⟩, hall⟩, ?_⟩
        rw [List.filter_cons, isActive_of_ok hb]
      · rintro ⟨⟨⟨b, hb⟩, hall⟩, rfl⟩
        refine ⟨b, hb, Except.bind_ok_iff.mpr ⟨_, ih.mpr ⟨hall, rfl⟩, ?_⟩⟩
        rw [List.filter_cons, isActive_of_ok hb]

theorem not_malformed {finding : Obj} : ¬ Malformed env finding ↔
    (∃ b, isActiveFinding env.text finding = .ok b) ∧
      (isActive env.text finding = true → Convertible env finding) := by
  cases hactive : isActiveFinding env.text finding with
  | error detail =>
      refine iff_of_false (fun h => ?_) fun h => by cases h.1.choose_spec
      exact h (.workflow (isActiveFinding_error.mp ⟨detail, hactive⟩))
  | ok b =>
      rw [isActive_of_ok hactive]
      constructor
      · intro h
        refine ⟨⟨b, rfl⟩, fun hb => ?_⟩
        by_contra hconvertible
        exact h (.active (hb ▸ hactive) hconvertible)
      · rintro ⟨_, hconvertible⟩ hmalformed
        cases hmalformed with
        | workflow h =>
            obtain ⟨detail, herror⟩ := isActiveFinding_error.mpr h
            rw [hactive] at herror
            cases herror
        | active h hother =>
            rw [hactive] at h
            exact hother (hconvertible (Except.ok.inj h))

theorem convertFindings_ok_iff : (∃ events, convertFindings env findings = .ok events) ↔
    ∀ finding ∈ findings, ¬ Malformed env finding := by
  simp only [not_malformed]
  constructor
  · rintro ⟨events, h⟩ finding hfinding
    obtain ⟨active, hactive, h⟩ := Except.bind_ok_iff.mp h
    obtain ⟨hall, rfl⟩ := activeFindings_ok.mp hactive
    refine ⟨hall finding hfinding, fun htrue => ?_⟩
    have hmem := List.mem_filter.mpr ⟨hfinding, htrue⟩
    obtain ⟨event, hevent⟩ := Except.exists_mapM_ok_iff.mp ⟨events, h⟩ finding hmem
    exact (asffToEvent_ok hevent).1
  · intro h
    have hactive := activeFindings_ok.mpr ⟨fun finding hfinding => (h finding hfinding).1, rfl⟩
    have hall : ∀ finding ∈ findings.filter (isActive env.text), ∃ event,
        asffToEvent env finding = .ok event := by
      intro finding hfinding
      obtain ⟨hmem, htrue⟩ := List.mem_filter.mp hfinding
      exact asffToEvent_of_convertible ((h finding hmem).2 htrue)
    obtain ⟨events, hevents⟩ := Except.exists_mapM_ok_iff.mpr hall
    exact ⟨events, Except.bind_ok_iff.mpr ⟨_, hactive, hevents⟩⟩

theorem eventIds_of_conversion {active : List Obj} {events : List FindingEvent}
    (h : active.mapM (asffToEvent env) = .ok events) :
    events.map (·.eventId) = (active.filterMap identityOf).map (some ∘ eventId env) := by
  have hpairs := Except.mapM_ok_iff.mp h
  clear h
  induction hpairs with
  | nil => rfl
  | cons hfirst _ ih =>
      obtain ⟨_, identity, _, _, _, _, _, hidentity, rfl⟩ := asffToEvent_ok hfirst
      rw [List.map_cons, List.filterMap_cons_some hidentity, List.map_cons, ih]
      rfl

theorem convertFindings_eventIds {events : List FindingEvent}
    (h : convertFindings env findings = .ok events) :
    events.map (·.eventId) = (activeIdentities env.text findings).map (some ∘ eventId env) := by
  obtain ⟨active, hactive, h⟩ := Except.bind_ok_iff.mp h
  obtain ⟨_, rfl⟩ := activeFindings_ok.mp hactive
  exact eventIds_of_conversion h

end Conversions

section Unseen

variable {db : Database}

theorem getByEventId_eq_none {eventId : Option String} :
    getByEventId db eventId = none ↔ eventId ∉ storedIds db := by
  rw [getByEventId, List.find?_eq_none, storedIds, List.mem_map]
  simp only [decide_eq_true_eq, not_exists, not_and]

theorem unseenFindings_sublist (seen : List (Option String)) (events : List FindingEvent) :
    (unseenFindings db seen events).Sublist events := by
  induction events generalizing seen with
  | nil => exact .slnil
  | cons event events ih =>
      rw [unseenFindings]
      split
      · exact (ih seen).cons event
      · split
        · exact (ih _).cons_cons event
        · exact (ih _).cons event

theorem mem_unseenFindings (eventId : Option String) (seen : List (Option String))
    (events : List FindingEvent) :
    eventId ∈ (unseenFindings db seen events).map (·.eventId) ↔
      eventId ∈ events.map (·.eventId) ∧ eventId ∉ seen ∧ eventId ∉ storedIds db := by
  induction events generalizing seen with
  | nil => exact iff_of_false List.not_mem_nil fun h => List.not_mem_nil h.1
  | cons event events ih =>
      rw [unseenFindings, List.map_cons, List.mem_cons]
      split
      · rename_i hseen
        rw [ih seen]
        constructor
        · rintro ⟨hmem, hnew⟩
          exact ⟨.inr hmem, hnew⟩
        · rintro ⟨rfl | hmem, hnew⟩
          · exact absurd hseen hnew.1
          · exact ⟨hmem, hnew⟩
      · rename_i hseen
        split
        · rename_i hnone
          rw [List.map_cons, List.mem_cons, ih, List.mem_cons, not_or]
          constructor
          · rintro (rfl | ⟨hmem, hne, hstored⟩)
            · exact ⟨.inl rfl, hseen, getByEventId_eq_none.mp hnone⟩
            · exact ⟨.inr hmem, hne.2, hstored⟩
          · rintro ⟨hmem, hnew, hstored⟩
            rcases eq_or_ne eventId event.eventId with rfl | hne
            · exact .inl rfl
            · exact .inr ⟨hmem.resolve_left hne, ⟨hne, hnew⟩, hstored⟩
        · rename_i row hsome
          have hold : event.eventId ∈ storedIds db := by
            by_contra hnew
            rw [getByEventId_eq_none.mpr hnew] at hsome
            cases hsome
          rw [ih, List.mem_cons, not_or]
          constructor
          · rintro ⟨hmem, hne, hstored⟩
            exact ⟨.inr hmem, hne.2, hstored⟩
          · rintro ⟨hmem, hnew, hstored⟩
            have hne : eventId ≠ event.eventId := fun heq => hstored (heq ▸ hold)
            exact ⟨hmem.resolve_left hne, ⟨hne, hnew⟩, hstored⟩

theorem unseenFindings_nodup (seen : List (Option String)) (events : List FindingEvent) :
    ((unseenFindings db seen events).map (·.eventId)).Nodup := by
  induction events generalizing seen with
  | nil => exact List.nodup_nil
  | cons event events ih =>
      rw [unseenFindings]
      split
      · exact ih seen
      · split
        · refine List.nodup_cons.mpr ⟨fun hmem => ?_, ih _⟩
          have hnew := ((mem_unseenFindings _ _ _).mp hmem).2.1
          exact hnew List.mem_cons_self
        · exact ih _

theorem unseenFindings_eq_nil {events : List FindingEvent}
    (h : ∀ event ∈ events, event.eventId ∈ storedIds db) : unseenFindings db [] events = [] := by
  refine List.eq_nil_iff_forall_not_mem.mpr fun event hevent => ?_
  have hmem := (mem_unseenFindings event.eventId [] events).mp
    (List.mem_map.mpr ⟨event, hevent, rfl⟩)
  exact hmem.2.2 (h event ((unseenFindings_sublist [] events).subset hevent))

end Unseen

section Rows

structure FindingRow extends Events.Event where
  resourceType : Option String

def normalizeFinding (event : FindingEvent) : Option FindingRow :=
  (Events.normalize event.toEventCreate).map fun row => ⟨row, event.resourceType⟩

def hasZero (text : String) : Bool :=
  text.toList.any fun c => c.toNat = 0

def metadataTexts (metadata : Obj) : List String :=
  metadata.filterMap fun p =>
    match p.2 with
    | .str text => some text
    | _ => none

def rowTexts (row : FindingRow) : List String :=
  [row.source, row.sourceType, row.eventType, row.category] ++
    [row.eventId, row.severity, row.username, row.sourceIp, row.destinationIp, row.hostname,
      row.action, row.status, row.resource, row.resourceType].reduceOption ++
    metadataTexts row.metadata

-- no text of PostgreSQL holds a zero character
def refused (row : FindingRow) : Bool :=
  (rowTexts row).any hasZero

variable (env : Env)

-- the other alerts of a finding are not correlated
def correlateInRange (db : Database) (alert : Alert) : Option Database :=
  if alert.ruleId = Correlation.cloudFindingId then do
    let _ ← subtractSeconds alert.firstSeen (90 * 86400)
    let _ ← subtractSeconds alert.lastSeen (-1)
    Correlation.correlateAlert env.toEnv db alert
  else Correlation.correlateAlert env.toEnv db alert

def ingestFinding (db : Database) (row : FindingRow) : Option Database :=
  if refused row then none
  else do
    let (db, alerts) ← Correlation.runDetection env.toEnv db row.toEventCreate
    alerts.foldlM (correlateInRange env) db

-- one transaction, which commits nothing where it raises
def createEventsBulk (db : Database) (events : List FindingEvent) : Option Database := do
  let rows ← events.mapM normalizeFinding
  rows.foldlM (ingestFinding env) db

end Rows

section Requests

structure Details where
  accepted : Int
  duplicates : Int
  inactiveSkipped : Int

inductive Response where
  | rejected (detail : String)
  | failed
  | ingested (count : Nat) (details : Details)

-- a bulk of no events creates nothing
def ingestAsff (env : Env) (db : Database) (body : ASFFBatch) : Response × Database :=
  match convertFindings env body.findings with
  | .error detail => (.rejected detail, db)
  | .ok events =>
      let unseen := unseenFindings db [] events
      match createEventsBulk env db unseen with
      | none => (.failed, db)
      | some db' =>
          (.ingested unseen.length
            { accepted := unseen.length
              duplicates := events.length - unseen.length
              inactiveSkipped := body.findings.length - events.length }, db')

end Requests

end Findings

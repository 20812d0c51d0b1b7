import AiSoc.Correlation.Reachable

namespace Correlation

open Permissions (Uuid Timestamp)
open PyJson PyStr Database Transition

def manualEntry (env : Env) (payload : IncidentCreate) (id : Uuid) : Obj :=
  createdEntry (env.clock id) (env.redactSecrets payload.title)
    (env.redactSecrets payload.description) payload.primaryUsername payload.primarySourceIp
    payload.presetScenario

structure Written (env : Env) (payload : IncidentCreate) (id : Uuid) (row : Incident) : Prop where
  title : row.title = env.redactSecrets payload.title
  description : row.description = env.redactSecrets payload.description
  entry : manualEntry env payload id ∈ row.timeline
  firstSeen : row.firstSeen ≤ env.clock id

def KeptIn (env : Env) (payload : IncidentCreate) (id : Uuid) (db : Database) : Prop :=
  ∃ row ∈ db.incidents, row.id = id ∧ Written env payload id row

def Spares (env : Env) (id : Uuid) (db : Database) (alert : Alert) : Prop :=
  alert.ruleId ∈ allowedRules → candidateAlerts env db alert ≠ [] →
    ∀ row, Selected (credentialMatch env db alert) db row → row.id ≠ id

def ManualInv (env : Env) (payload : IncidentCreate) (id : Uuid) (db : Database) : Prop :=
  ∃ row ∈ db.incidents, row.id = id ∧ Written env payload id row ∧
    row.correlationKey = manualKey env payload id

section Preservation

variable {env : Env} {payload : IncidentCreate} {id : Uuid} {db db' : Database} {alert : Alert}
  {pending : List Alert}

theorem manualInv_created (env : Env) (payload : IncidentCreate) (db : Database) :
    ManualInv env payload db.nextId (createManualIncident env db payload) :=
  ⟨manualIncident env payload db.nextId, List.mem_append_right _ List.mem_cons_self, rfl,
    ⟨rfl, rfl, List.mem_cons_self, le_refl _⟩, rfl⟩

theorem manualInv_lt (hc : Consistent db pending) (hP : ManualInv env payload id db) :
    id < db.nextId := by
  obtain ⟨row, hrow, rfl, _⟩ := hP
  exact hc.incidents_lt row hrow

theorem manualInv_of_ne {row row' : Incident} {alertIds : List Uuid}
    (hP : ManualInv env payload id db) (hm : Merged db db' row row' alertIds)
    (hne : row.id ≠ id) : ManualInv env payload id db' := by
  obtain ⟨kept, hkept, hid, hwritten⟩ := hP
  have hother : kept.id ≠ row.id := fun h => hne (h.symm.trans hid)
  exact ⟨kept, (hm.mem kept).mpr (.inr ⟨hkept, hother⟩), hid, hwritten⟩

theorem manualInv_correlate (hc : Consistent db (alert :: pending))
    (hP : ManualInv env payload id db) (hok : Spares env id db alert)
    (h : Correlated env db alert db') : ManualInv env payload id db' := by
  have hlt := manualInv_lt hc hP
  cases h with
  | ignored rule candidates same => exact same ▸ hP
  | credential row row' firstSeen lastSeen rule candidates merged target refresh first last =>
      refine manualInv_of_ne hP merged ?_
      rcases target with hsel | ⟨_, oldest, newest, rfl⟩
      · exact hok rule candidates row hsel
      · exact hlt.ne'
  | finding event row row' scores topScore lastSeen rule found merged target refresh scored top
      last =>
      refine manualInv_of_ne hP merged ?_
      rcases target with hsel | ⟨_, score, _, rfl⟩
      · -- the key of a finding is never that of a manual incident
        obtain ⟨kept, hkept, rfl, _, hkey⟩ := hP
        intro hid
        have hsame := eq_of_id hc.incidents_nodup hsel.1 hkept hid
        have hfinding := isFindingKey_of_findingMatch hsel.2.1
        rw [hsame, hkey] at hfinding
        exact manualKey_not_finding payload _ hfinding
      · exact hlt.ne'

theorem preserved_manual (env : Env) (payload : IncidentCreate) (id : Uuid) :
    Preserved env (Spares env id) fun db _ => ManualInv env payload id db where
  detect := by
    rintro db db' event alerts _ ⟨row, hrow, hkept⟩ hd
    exact ⟨row, hd.incidents ▸ hrow, hkept⟩
  correlate := by
    intro db db' alert pending hc hP hok h
    exact manualInv_correlate hc hP hok h
  manual := by
    rintro db other _ ⟨row, hrow, hkept⟩
    exact ⟨row, List.mem_append_left _ hrow, hkept⟩

end Preservation

section Erased

variable {env : Env} {payload : IncidentCreate} {id : Uuid} {db db' : Database} {alert : Alert}

theorem entry_type (entry : TimelineEntry) :
    entry.toJson.lookup "type" = some (.str entry.type.value) := by
  rfl

theorem manualEntry_not_built (linked : List Alert) :
    manualEntry env payload id ∉ incidentTimeline db linked := by
  intro h
  obtain ⟨entry, _, hentry⟩ := List.mem_map.mp h
  have htype := congrArg (List.lookup "type") hentry
  have hcreated : (manualEntry env payload id).lookup "type" = some (.str "incident_created") :=
    rfl
  rw [entry_type, hcreated] at htype
  have hvalue : entry.type.value = "incident_created" := Json.str.inj (Option.some.inj htype)
  cases htag : entry.type <;> rw [htag] at hvalue <;> exact absurd hvalue (by decide)

theorem merge_erases (hrule : alert.ruleId ∈ allowedRules)
    (hne : candidateAlerts env db alert ≠ [])
    (hsel : ∃ row, Selected (credentialMatch env db alert) db row)
    (honly : ∀ row, Selected (credentialMatch env db alert) db row → row.id = id)
    (h : Correlated env db alert db') : ¬ KeptIn env payload id db' := by
  cases h with
  | ignored rule candidates same => exact absurd (candidates hrule) hne
  | credential row row' firstSeen lastSeen rule candidates merged target refresh first last =>
      rcases target with htarget | ⟨hnone, _⟩
      · rintro ⟨kept, hkept, hid, hwritten⟩
        rcases (merged.mem kept).mp hkept with rfl | ⟨_, hother⟩
        · have hentry := hwritten.entry
          rw [refresh] at hentry
          exact manualEntry_not_built _ hentry
        · exact hother (hid.trans (honly row htarget).symm)
      · obtain ⟨row, hrow, hmatch, _⟩ := hsel
        exact absurd (hmatch.symm.trans (hnone row hrow)) (by decide)
  | finding event row row' scores topScore lastSeen rule found merged target refresh scored top
      last =>
      rw [rule] at hrule
      exact absurd hrule cloudFinding_not_allowed

end Erased

theorem manual_incident_kept {env : Env} {payload : IncidentCreate} {db db' : Database}
    (hdb : Run (handle env) anyStep Database.empty db)
    (h : Run (handle env) (correlationsMeet env (Spares env db.nextId))
      (createManualIncident env db payload) db') :
    KeptIn env payload db.nextId db' := by
  have hc : Consistent (createManualIncident env db payload) [] :=
    (consistent_of_run hdb).createManualIncident payload
  have hrun := (preserved_manual env payload db.nextId).run (run_of_requests h)
    ⟨hc, manualInv_created env payload db⟩
  obtain ⟨row, hrow, hid, hwritten, _⟩ := hrun.2
  exact ⟨row, hrow, hid, hwritten⟩

section Decidable

instance (env : Env) (id : Uuid) (db : Database) (alert : Alert) :
    Decidable (Spares env id db alert) :=
  inferInstanceAs (Decidable (alert.ruleId ∈ allowedRules → candidateAlerts env db alert ≠ [] →
    ∀ row, Selected (credentialMatch env db alert) db row → row.id ≠ id))

end Decidable

def victimIncident : IncidentCreate :=
  ⟨"Lost laptop", "Reported by the victim", "high", some "victim", none, "none"⟩

def otherAttack : List EventCreate :=
  attack tenIds "success" 0 100 (some "other") (some "198.51.100.60")

def victimAttack : List EventCreate :=
  attack tenIds "success" 10 100 (some "victim") (some "198.51.100.60")

theorem other_attack_keeps :
    ∃ db, Run (handle plainEnv) (correlationsMeet plainEnv (Spares plainEnv 0))
        (createManualIncident plainEnv Database.empty victimIncident) db ∧
      db.incidents.length = 2 ∧ KeptIn plainEnv victimIncident 0 db := by
  have hany : (execWhile (handle plainEnv)
      (fun db request => decide (correlationsMeet plainEnv (Spares plainEnv 0) db request))
      (createManualIncident plainEnv Database.empty victimIncident)
      [.createEventsBulk otherAttack]).any (fun db => decide (db.incidents.length = 2)) = true := by
    decide
  obtain ⟨db, hrun, hdb⟩ := run_of_execWhile_any hany
  have hmeets := hrun.mono fun _ _ hok => of_decide_eq_true hok
  exact ⟨db, hmeets, of_decide_eq_true hdb, manual_incident_kept (.refl _) hmeets⟩

theorem victim_attack_erases :
    ∃ db, Run (handle plainEnv) (fun _ request => request.ingests = true)
        (createManualIncident plainEnv Database.empty victimIncident) db ∧
      ∃ row ∈ db.incidents, row.id = 0 ∧ row.description ≠ victimIncident.description ∧
        plainEnv.clock 0 < row.firstSeen ∧ ¬ KeptIn plainEnv victimIncident 0 db := by
  have hany : (execWhile (handle plainEnv) (fun _ request => request.ingests)
      (createManualIncident plainEnv Database.empty victimIncident)
      [.createEventsBulk victimAttack]).any (fun db => decide (
        (∃ row ∈ db.incidents, row.id = 0 ∧ row.description ≠ victimIncident.description ∧
          plainEnv.clock 0 < row.firstSeen) ∧
        ∀ row ∈ db.incidents, row.id = 0 → plainEnv.clock 0 < row.firstSeen)) = true := by
    decide
  obtain ⟨db, hrun, hdb⟩ := run_of_execWhile_any hany
  obtain ⟨⟨row, hrow, hid, hdescription, hlater⟩, hall⟩ := of_decide_eq_true hdb
  refine ⟨db, hrun, row, hrow, hid, hdescription, hlater, ?_⟩
  rintro ⟨kept, hkept, hkeptId, hwritten⟩
  exact absurd hwritten.firstSeen (not_le.mpr (hall kept hkept hkeptId))

end Correlation

import AiSoc.Correlation.Reachable

namespace Correlation

open Permissions (Uuid Timestamp)
open PyJson Database Query Transition

section Statement

def OneOpenIncident (db : Database) : Prop :=
  ∀ r ∈ db.incidents, ∀ s ∈ db.incidents, r.status = "open" → s.status = "open" → r.id ≠ s.id →
    ∀ alertId, (r.id, alertId) ∈ db.links → (s.id, alertId) ∉ db.links

def Within (window t u : Timestamp) : Prop :=
  t - u ≤ window ∧ u - t ≤ window

def mergeWindow (env : Env) : Timestamp :=
  seconds env.settings.incidentMergeWindowSeconds

def KeysApart (env : Env) (db : Database) : Prop :=
  ∀ r ∈ db.incidents, ∀ s ∈ db.incidents, r.status = "open" → s.status = "open" → r.id ≠ s.id →
    isCredentialKey r.correlationKey → r.correlationKey = s.correlationKey →
      ¬ Within (mergeWindow env) r.lastSeen s.lastSeen

def Concerned (env : Env) (db : Database) (alert : Alert) (row : Incident) : Prop :=
  (∃ a ∈ candidateAlerts env db alert, (row.id, a.id) ∈ db.links) ∨
    row.correlationKey = credentialKey env db alert ∧
      Within (mergeWindow env) row.lastSeen alert.lastSeen

def MergesConcerned (env : Env) (db : Database) (alert : Alert) : Prop :=
  alert.ruleId ∈ allowedRules → candidateAlerts env db alert ≠ [] →
    ∀ row ∈ db.incidents, row.status = "open" → Concerned env db alert row →
      credentialMatch env db alert row = true ∧
        ∀ other ∈ db.incidents, credentialMatch env db alert other = true → other.id ≠ row.id →
          other.lastSeen < row.lastSeen

end Statement

section Rows

variable {env : Env} {db db' : Database} {alert : Alert} {pending : List Alert}
  {row row' : Incident} {alertIds : List Uuid}

theorem lastSeen_of_credential (hc : Consistent db (alert :: pending))
    (hrule : alert.ruleId ∈ allowedRules) (hne : candidateAlerts env db alert ≠ [])
    (hm : Merged db db' row row' ((candidateAlerts env db alert).map (·.id)))
    (hrow : row ∈ db.incidents → row.lastSeen ≤ alert.lastSeen) {lastSeen : Timestamp}
    (hlast : ((db'.alertsForIncident env row.id).map (·.lastSeen)).max? = some lastSeen) :
    lastSeen = alert.lastSeen := by
  have halert := hc.pending_stored alert List.mem_cons_self
  have hself := alert_candidate hc.alerts_nodup halert hrule hne
  refine le_antisymm ?_ ?_
  · obtain ⟨a, ha, rfl⟩ := List.mem_map.mp (List.max?_eq_some_iff.mp hlast).1
    obtain ⟨hstored, hlink⟩ := mem_alertsForIncident.mp ha
    rw [hm.alerts] at hstored
    rcases (hm.mem_links _).mp hlink with hold | ⟨_, hcand⟩
    · have hin := hm.row_of_link hc hold
      exact le_trans (hc.covers row hin a hstored hold) (hrow hin)
    · obtain ⟨b, hb, hid⟩ := List.mem_map.mp hcand
      rw [← eq_of_id hc.alerts_nodup (candidate_stored halert hb) hstored hid]
      exact candidate_lastSeen hb
  · refine lastSeen_le_of_max hlast (hm.alerts ▸ halert) ?_
    exact (hm.mem_links _).mpr (.inr ⟨rfl, List.mem_map_of_mem hself⟩)

end Rows

section Preservation

variable {env : Env} {db db' : Database} {alert : Alert} {pending : List Alert}
  {row row' : Incident} {alertIds : List Uuid}

theorem oneOpenIncident_merged (hc : Consistent db pending) (hone : OneOpenIncident db)
    (hm : Merged db db' row row' alertIds) (hopened : row.status = "open")
    (hnew : ∀ s ∈ db.incidents, s.id ≠ row.id → ∀ id ∈ alertIds, (s.id, id) ∉ db.links) :
    OneOpenIncident db' := by
  have hmerged : ∀ s ∈ db.incidents, s.id ≠ row.id → ∀ alertId,
      (row.id, alertId) ∈ db'.links → (s.id, alertId) ∉ db.links := by
    intro s hs hne alertId hlink hother
    rcases (hm.mem_links _).mp hlink with hold | ⟨_, hid⟩
    · have hrow := hm.row_of_link hc hold
      exact hone row hrow s hs hopened (hc.opened s hs) (Ne.symm hne) alertId hold hother
    · exact hnew s hs hne alertId hid hother
  intro r hr s hs hopenr hopens hne alertId hlr hls
  rcases (hm.mem r).mp hr with rfl | ⟨hr, hrne⟩
  · rcases (hm.mem s).mp hs with rfl | ⟨hs, hsne⟩
    · exact hne rfl
    · exact hmerged s hs hsne alertId (hm.id ▸ hlr) ((hm.links_of_ne hsne alertId).mp hls)
  · have hlr := (hm.links_of_ne hrne alertId).mp hlr
    rcases (hm.mem s).mp hs with rfl | ⟨hs, hsne⟩
    · exact hmerged r hr hrne alertId (hm.id ▸ hls) hlr
    · exact hone r hr s hs hopenr hopens hne alertId hlr ((hm.links_of_ne hsne alertId).mp hls)

theorem within_symm {window t u : Timestamp} (h : Within window t u) : Within window u t :=
  ⟨h.2, h.1⟩

theorem keysApart_merged (hapart : KeysApart env db) (hm : Merged db db' row row' alertIds)
    (hnew : ∀ s ∈ db.incidents, s.status = "open" → s.id ≠ row.id →
      isCredentialKey s.correlationKey → s.correlationKey = row'.correlationKey →
        ¬ Within (mergeWindow env) s.lastSeen row'.lastSeen) :
    KeysApart env db' := by
  intro r hr s hs hopenr hopens hne hkey hsame hwithin
  rcases (hm.mem r).mp hr with rfl | ⟨hr, hrne⟩
  · rcases (hm.mem s).mp hs with rfl | ⟨hs, hsne⟩
    · exact hne rfl
    · exact hnew s hs hopens hsne (hsame ▸ hkey) hsame.symm (within_symm hwithin)
  · rcases (hm.mem s).mp hs with rfl | ⟨hs, hsne⟩
    · exact hnew r hr hopenr hrne hkey hsame hwithin
    · exact hapart r hr s hs hopenr hopens hne hkey hsame hwithin

theorem not_concerned (hok : MergesConcerned env db alert) (hrule : alert.ruleId ∈ allowedRules)
    (hne : candidateAlerts env db alert ≠ [])
    (htarget : Selected (credentialMatch env db alert) db row ∨
      NoneMatch (credentialMatch env db alert) db) {s : Incident} (hs : s ∈ db.incidents)
    (hopen : s.status = "open") (hsne : s.id ≠ row.id) : ¬ Concerned env db alert s := by
  intro hconcerned
  obtain ⟨hmatch, hnewest⟩ := hok hrule hne s hs hopen hconcerned
  rcases htarget with ⟨hrow, hrmatch, hall⟩ | hnone
  · exact absurd (hnewest row hrow hrmatch (Ne.symm hsne)) (not_lt.mpr (hall s hs hmatch))
  · exact Bool.false_ne_true ((hnone s hs).symm.trans hmatch)

theorem correlate_preserves (hc : Consistent db (alert :: pending))
    (hP : OneOpenIncident db ∧ KeysApart env db) (hok : MergesConcerned env db alert)
    (h : Correlated env db alert db') : OneOpenIncident db' ∧ KeysApart env db' := by
  cases h with
  | ignored _ _ same => exact same ▸ hP
  | credential row row' firstSeen lastSeen rule candidates merged target refresh first last =>
      have hopened := target.opened
      have hnone : ∀ s ∈ db.incidents, s.status = "open" → s.id ≠ row.id →
          ¬ Concerned env db alert s := fun s hs hopen hsne =>
        not_concerned hok rule candidates (target.imp_right And.left) hs hopen hsne
      have hlast : row'.lastSeen = alert.lastSeen := by
        have hrow : row ∈ db.incidents → row.lastSeen ≤ alert.lastSeen := by
          intro hin
          rcases target with hsel | ⟨_, _, _, rfl⟩
          · exact credentialMatch_lastSeen hsel.2.1
          · exact absurd (hc.incidents_lt _ hin) (lt_irrefl _)
        rw [← lastSeen_of_credential hc rule candidates merged hrow last, refresh]
        rfl
      have hkey : row'.correlationKey = credentialKey env db alert := by
        rw [refresh]
        rfl
      refine ⟨oneOpenIncident_merged hc hP.1 merged hopened ?_, keysApart_merged hP.2 merged ?_⟩
      · intro s hs hsne id hid hlink
        obtain ⟨a, ha, rfl⟩ := List.mem_map.mp hid
        exact hnone s hs (hc.opened s hs) hsne (.inl ⟨a, ha, hlink⟩)
      · intro s hs hopen hsne _ hsame hwithin
        rw [hlast] at hwithin
        rw [hkey] at hsame
        exact hnone s hs hopen hsne (.inr ⟨hsame, hwithin⟩)
  | finding event row row' scores topScore lastSeen rule found merged target refresh scored top
      last =>
      have hopened := target.opened
      have hkey : row'.correlationKey = eventFindingKey env event := by
        rw [refresh, ← target.key]
        rfl
      refine ⟨oneOpenIncident_merged hc hP.1 merged hopened ?_, keysApart_merged hP.2 merged ?_⟩
      · intro s _ _ id hid hlink
        rw [List.mem_singleton.mp hid] at hlink
        exact hc.pending_unlinked alert List.mem_cons_self rule s.id hlink
      · intro s _ _ _ hcred hsame _
        rw [hsame, hkey] at hcred
        exact not_isFindingKey_of_isCredentialKey hcred (isFindingKey_findingKey _ _)

theorem manual_preserves (hc : Consistent db []) (hP : OneOpenIncident db ∧ KeysApart env db)
    (payload : IncidentCreate) :
    OneOpenIncident (createManualIncident env db payload) ∧
      KeysApart env (createManualIncident env db payload) := by
  constructor
  · intro r hr s hs hopenr hopens hne alertId hlr hls
    rcases mem_createManualIncident hr with hr | rfl
    · rcases mem_createManualIncident hs with hs | rfl
      · exact hP.1 r hr s hs hopenr hopens hne alertId hlr hls
      · exact hc.not_linked alertId hls
    · exact hc.not_linked alertId hlr
  · intro r hr s hs hopenr hopens hne hkey hsame
    rcases mem_createManualIncident hr with hr | rfl
    · rcases mem_createManualIncident hs with hs | rfl
      · exact hP.2 r hr s hs hopenr hopens hne hkey hsame
      · exact absurd (hsame ▸ hkey) (manualKey_not_credential payload db.nextId)
    · exact absurd hkey (manualKey_not_credential payload db.nextId)

theorem preserved_oneOpenIncident (env : Env) :
    Preserved env (MergesConcerned env)
      fun db _ => OneOpenIncident db ∧ KeysApart env db where
  detect := by
    intro db db' payload alerts _ hP hd
    unfold OneOpenIncident KeysApart
    rw [hd.incidents, hd.links]
    exact hP
  correlate := fun hc hP hok h => correlate_preserves hc hP hok h
  manual := fun payload hc hP => manual_preserves hc hP payload

end Preservation

section Decidable

instance (db : Database) : Decidable (OneOpenIncident db) :=
  decidable_of_iff (∀ r ∈ db.incidents, ∀ s ∈ db.incidents, r.status = "open" → s.status = "open" →
      r.id ≠ s.id → ∀ p ∈ db.links, p.1 = r.id → (s.id, p.2) ∉ db.links) (by
    constructor
    · intro h r hr s hs hopenr hopens hne alertId hlink
      exact h r hr s hs hopenr hopens hne _ hlink rfl
    · intro h r hr s hs hopenr hopens hne p hp hpr
      obtain ⟨incidentId, alertId⟩ := p
      exact h r hr s hs hopenr hopens hne alertId (hpr ▸ hp))

instance (window t u : Timestamp) : Decidable (Within window t u) :=
  inferInstanceAs (Decidable (t - u ≤ window ∧ u - t ≤ window))

instance (key : String) : Decidable (isCredentialKey key) :=
  inferInstanceAs (Decidable ("credential_compromise:u:".toList <+: key.toList))

instance (env : Env) (db : Database) : Decidable (KeysApart env db) :=
  inferInstanceAs (Decidable (∀ r ∈ db.incidents, ∀ s ∈ db.incidents, r.status = "open" →
    s.status = "open" → r.id ≠ s.id → isCredentialKey r.correlationKey →
      r.correlationKey = s.correlationKey → ¬ Within (mergeWindow env) r.lastSeen s.lastSeen))

instance (env : Env) (db : Database) (alert : Alert) (row : Incident) :
    Decidable (Concerned env db alert row) :=
  inferInstanceAs (Decidable ((∃ a ∈ candidateAlerts env db alert, (row.id, a.id) ∈ db.links) ∨
    row.correlationKey = credentialKey env db alert ∧
      Within (mergeWindow env) row.lastSeen alert.lastSeen))

instance (env : Env) (db : Database) (alert : Alert) : Decidable (MergesConcerned env db alert) :=
  inferInstanceAs (Decidable (alert.ruleId ∈ allowedRules → candidateAlerts env db alert ≠ [] →
    ∀ row ∈ db.incidents, row.status = "open" → Concerned env db alert row →
      credentialMatch env db alert row = true ∧
        ∀ other ∈ db.incidents, credentialMatch env db alert other = true → other.id ≠ row.id →
          other.lastSeen < row.lastSeen))

end Decidable

theorem alert_in_one_open_incident {env : Env} {db : Database}
    (h : Run (handle env) (correlationsMeet env (MergesConcerned env)) Database.empty db) :
    OneOpenIncident db ∧ KeysApart env db := by
  have hempty : OneOpenIncident Database.empty ∧ KeysApart env Database.empty := by
    constructor <;> intro r hr <;> cases hr
  exact ((preserved_oneOpenIncident env).committed h hempty).2

def firstAttack : List EventCreate :=
  attack tenIds "success" 0 100 (some "victim") (some "198.51.100.60")

def nextSuccess (second : Int) : EventCreate :=
  telemetry "next" "login_success" second (some "victim") (some "198.51.100.60") []

theorem next_success_merges :
    ∃ db, Run (handle plainEnv) (correlationsMeet plainEnv (MergesConcerned plainEnv))
        Database.empty db ∧
      (db.incidents.length = 1 ∧ db.links.length = 3) ∧
      OneOpenIncident db ∧ KeysApart plainEnv db := by
  have hany : (execWhile (handle plainEnv)
      (fun db request => decide (correlationsMeet plainEnv (MergesConcerned plainEnv) db request))
      Database.empty [.createEventsBulk firstAttack, .createEvent (nextSuccess 200)]).any
        (fun db => decide (db.incidents.length = 1 ∧ db.links.length = 3)) = true := by
    decide
  obtain ⟨db, hrun, hdb⟩ := run_of_execWhile_any hany
  have hmeets := hrun.mono fun _ _ hok => of_decide_eq_true hok
  exact ⟨db, hmeets, of_decide_eq_true hdb, alert_in_one_open_incident hmeets⟩

theorem late_success_splits :
    ∃ db, Run (handle plainEnv) (fun _ request => request.ingests = true) Database.empty db ∧
      ¬ OneOpenIncident db ∧ ¬ KeysApart plainEnv db := by
  have hany : (execWhile (handle plainEnv) (fun _ request => request.ingests) Database.empty
      [.createEventsBulk firstAttack, .createEvent (nextSuccess 50)]).any
        (fun db => decide (¬ OneOpenIncident db ∧ ¬ KeysApart plainEnv db)) = true := by
    decide
  obtain ⟨db, hrun, hdb⟩ := run_of_execWhile_any hany
  exact ⟨db, hrun, of_decide_eq_true hdb⟩

end Correlation

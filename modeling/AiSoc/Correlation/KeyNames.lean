import AiSoc.Correlation.Locks
import AiSoc.Correlation.Reachable

namespace Correlation

open Permissions (Uuid Timestamp)
open PyJson Database Transition

section Statement

def FromCredentialPath (row : Incident) : Prop :=
  isCredentialKey row.correlationKey

structure KeyNames (env : Env) (row : Incident) : Prop where
  key : row.correlationKey = buildCorrelationKey env.text row.primaryUsername row.primarySourceIp
  lookup : ∀ u s, row.correlationKey = buildCorrelationKey env.text u s ↔
    normalized env.text row.primaryUsername = normalized env.text u ∧
      normalized env.text row.primarySourceIp = normalized env.text s

def Supplied (env : Env) (value old : Option String) : Prop :=
  truthyText value = none → normalized env.text old = ""

instance (env : Env) (value old : Option String) : Decidable (Supplied env value old) :=
  inferInstanceAs (Decidable (_ → _))

def IdentitiesComplete (env : Env) (db : Database) (alert : Alert) : Prop :=
  alert.ruleId ∈ allowedRules → candidateAlerts env db alert ≠ [] →
    ∀ row, Selected (credentialMatch env db alert) db row →
      Supplied env (primaryUsername env db alert) row.primaryUsername ∧
        Supplied env (primarySourceIp env db alert) row.primarySourceIp

instance (env : Env) (db : Database) (alert : Alert) : Decidable (IdentitiesComplete env db alert) :=
  inferInstanceAs (Decidable (alert.ruleId ∈ allowedRules → candidateAlerts env db alert ≠ [] →
    ∀ row, Selected (credentialMatch env db alert) db row →
      Supplied env (primaryUsername env db alert) row.primaryUsername ∧
        Supplied env (primarySourceIp env db alert) row.primarySourceIp))

end Statement

section Rows

variable {env : Env} {db db' : Database} {alert : Alert} {row row' : Incident}

theorem supplied_iff {value old : Option String} :
    normalized env.text value = normalized env.text ((truthyText value).or old) ↔
      Supplied env value old := by
  cases htruthy : truthyText value with
  | none =>
      rw [Option.none_or, normalized_blank htruthy, Supplied]
      exact ⟨fun h _ => h.symm, fun h => (h htruthy).symm⟩
  | some s =>
      have hvalue : value = some s := Option.eq_some_of_filter_eq_some htruthy
      rw [Option.some_or, hvalue, Supplied, ← hvalue, htruthy]
      simp

theorem keyNames_iff : KeyNames env row ↔
    row.correlationKey =
      buildCorrelationKey env.text row.primaryUsername row.primarySourceIp := by
  constructor
  · exact fun h => h.key
  · intro h
    refine ⟨h, fun u s => ?_⟩
    rw [h, buildCorrelationKey_inj]

theorem keyNames_refreshed {username sourceIp : Option String} {linked : List Alert}
    {firstSeen lastSeen : Timestamp} :
    KeyNames env (refreshCredential env db (buildCorrelationKey env.text username sourceIp)
        username sourceIp linked firstSeen lastSeen row) ↔
      Supplied env username row.primaryUsername ∧ Supplied env sourceIp row.primarySourceIp := by
  rw [keyNames_iff, ← supplied_iff, ← supplied_iff]
  exact buildCorrelationKey_inj

theorem not_fromCredentialPath_finding {event : Event}
    (h : row.correlationKey = eventFindingKey env event) : ¬ FromCredentialPath row := by
  intro hcredential
  rw [FromCredentialPath, h] at hcredential
  exact not_isFindingKey_of_isCredentialKey hcredential (isFindingKey_findingKey _ _)

theorem Correlated.path (h : Correlated env db alert db') :
    db' = db ∨ ∃ row row' alertIds, Merged db db' row row' alertIds ∧
      (FromCredentialPath row' ↔ alert.ruleId ≠ cloudFindingId) := by
  cases h with
  | ignored _ _ same => exact .inl same
  | credential row row' firstSeen lastSeen rule candidates merged target refresh first last =>
      refine .inr ⟨row, row', _, merged, ?_⟩
      have hkey : FromCredentialPath row' := by
        rw [refresh]
        exact isCredentialKey_buildCorrelationKey _ _
      refine ⟨fun _ hfinding => ?_, fun _ => hkey⟩
      rw [hfinding] at rule
      exact cloudFinding_not_allowed rule
  | finding event row row' scores topScore lastSeen rule found merged target refresh scored top
      last =>
      refine .inr ⟨row, row', _, merged, ?_⟩
      have hkey : row'.correlationKey = eventFindingKey env event := by
        rw [refresh, ← target.key]
        rfl
      exact ⟨fun h => absurd h (not_fromCredentialPath_finding hkey), fun h => absurd rule h⟩

def AllNamed (env : Env) (db : Database) : Prop :=
  ∀ row ∈ db.incidents, FromCredentialPath row → KeyNames env row

theorem supplied_created {value : Option String} : Supplied env value value :=
  fun h => normalized_blank h

theorem allNamed_correlated (hall : AllNamed env db) (hok : IdentitiesComplete env db alert)
    (h : Correlated env db alert db') : AllNamed env db' := by
  cases h with
  | ignored _ _ same => exact same ▸ hall
  | credential row row' firstSeen lastSeen rule candidates merged target refresh first last =>
      intro other hother hpath
      rcases (merged.mem other).mp hother with rfl | ⟨hold, _⟩
      · rw [refresh]
        refine keyNames_refreshed.mpr ?_
        rcases target with hselected | ⟨_, first, last, rfl⟩
        · exact hok rule candidates row hselected
        · exact ⟨supplied_created, supplied_created⟩
      · exact hall other hold hpath
  | finding event row row' scores topScore lastSeen rule found merged target refresh scored top
      last =>
      intro other hother hpath
      rcases (merged.mem other).mp hother with rfl | ⟨hold, _⟩
      · have hkey : other.correlationKey = eventFindingKey env event := by
          rw [refresh, ← target.key]
          rfl
        exact absurd hpath (not_fromCredentialPath_finding hkey)
      · exact hall other hold hpath

theorem preserved_allNamed (env : Env) :
    Preserved env (IdentitiesComplete env) fun db _ => AllNamed env db where
  detect := by
    intro db db' payload alerts _ hall hd
    unfold AllNamed
    rw [hd.incidents]
    exact hall
  correlate := fun _ hall hok h => allNamed_correlated hall hok h
  manual := by
    intro db payload _ hall row hrow hpath
    rcases mem_createManualIncident hrow with hold | rfl
    · exact hall row hold hpath
    · exact absurd hpath (manualKey_not_credential payload db.nextId)

end Rows

section Runs

variable {env : Env} {db : Database}

theorem key_names_identities
    (h : Run (handle env) (correlationsMeet env (IdentitiesComplete env)) Database.empty db) :
    (∀ u s u' s', buildCorrelationKey env.text u s = buildCorrelationKey env.text u' s' →
        normalized env.text u = normalized env.text u' ∧
          normalized env.text s = normalized env.text s') ∧
      ∀ row ∈ db.incidents, FromCredentialPath row → KeyNames env row := by
  have hempty : AllNamed env Database.empty := fun row hrow => absurd hrow List.not_mem_nil
  refine ⟨fun u s u' s' hkey => buildCorrelationKey_inj.mp hkey, ?_⟩
  exact ((preserved_allNamed env).committed h hempty).2

instance (row : Incident) : Decidable (FromCredentialPath row) :=
  inferInstanceAs (Decidable ("credential_compromise:u:".toList <+: row.correlationKey.toList))

def laterIds : List String := ["10", "11", "12", "13", "14", "15", "16", "17", "18", "19"]

def knownAttack : List EventCreate :=
  attack tenIds "success" 0 100 (some "victim") (some "198.51.100.60")

theorem complete_attacks_named :
    ∃ db, Run (handle plainEnv) (correlationsMeet plainEnv (IdentitiesComplete plainEnv))
        Database.empty db ∧ db.incidents.length = 1 ∧
      ((∀ u s u' s', buildCorrelationKey plainEnv.text u s =
            buildCorrelationKey plainEnv.text u' s' →
          normalized plainEnv.text u = normalized plainEnv.text u' ∧
            normalized plainEnv.text s = normalized plainEnv.text s') ∧
        ∀ row ∈ db.incidents, FromCredentialPath row → KeyNames plainEnv row) := by
  have hany : (execWhile (handle plainEnv)
      (fun db request => decide (correlationsMeet plainEnv (IdentitiesComplete plainEnv) db request))
      Database.empty [.createEventsBulk knownAttack, .createEventsBulk
        (attack laterIds "later" 2000 2100 (some "victim") (some "198.51.100.60"))]).any
        (fun db => decide (db.incidents.length = 1)) = true := by
    decide
  obtain ⟨db, hrun, hdb⟩ := run_of_execWhile_any hany
  have hmeets := hrun.mono fun _ _ hok => of_decide_eq_true hok
  exact ⟨db, hmeets, of_decide_eq_true hdb, key_names_identities hmeets⟩

theorem nameless_attack_renames :
    ∃ db, Run (handle plainEnv) (fun _ request => request.ingests = true) Database.empty db ∧
      ¬ ∀ row ∈ db.incidents, FromCredentialPath row → KeyNames plainEnv row := by
  have hany : (execWhile (handle plainEnv) (fun _ request => request.ingests) Database.empty
      [.createEventsBulk knownAttack, .createEventsBulk
        (attack laterIds "later" 2000 2100 none (some "198.51.100.60"))]).any
        (fun db => db.incidents.any fun row => decide (FromCredentialPath row ∧
          row.correlationKey ≠
            buildCorrelationKey plainEnv.text row.primaryUsername row.primarySourceIp)) = true := by
    decide
  obtain ⟨db, hrun, hdb⟩ := run_of_execWhile_any hany
  obtain ⟨row, hrow, hnamed⟩ := List.any_eq_true.mp hdb
  obtain ⟨hpath, hkey⟩ := of_decide_eq_true hnamed
  exact ⟨db, hrun, fun h => hkey (h row hrow hpath).key⟩

end Runs

end Correlation

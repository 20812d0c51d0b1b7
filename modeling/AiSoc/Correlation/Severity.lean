import AiSoc.Correlation.Findings
import AiSoc.Correlation.Manual

namespace Correlation

open Transition Database

section Grades

structure Graded (row : Incident) : Prop where
  nonneg : 0 ≤ row.riskScore
  le_hundred : row.riskScore ≤ 100
  severity : row.severity = severityFromScore row.riskScore

def AllGraded (db : Database) : Prop :=
  ∀ row ∈ db.incidents, Graded row

def GradedTable (table : List (String × Int)) : Prop :=
  ∀ p ∈ table, 0 ≤ p.2 ∧ p.2 ≤ 100 ∧ p.1 = severityFromScore p.2

theorem findingScores_graded : GradedTable findingScores := by
  unfold GradedTable
  decide

theorem manualScores_graded : GradedTable manualScores := by
  unfold GradedTable
  decide

theorem graded_of_lookup {table : List (String × Int)} (htable : GradedTable table)
    {severity : String} {score : Int} (h : table.lookup severity = some score) :
    0 ≤ score ∧ score ≤ 100 ∧ severity = severityFromScore score := by
  obtain ⟨before, after, hsplit, _⟩ := List.lookup_eq_some_iff.mp h
  refine htable (severity, score) ?_
  rw [hsplit]
  exact List.mem_append_right _ List.mem_cons_self

theorem score_range (env : Env) (alerts : List Alert) :
    0 ≤ score env alerts ∧ score env alerts ≤ 100 := by
  unfold score
  split
  · exact ⟨le_rfl, by decide⟩
  · refine ⟨le_max_left _ _, max_le (by decide) (min_le_left _ _)⟩

end Grades

section Steps

variable {env : Env} {db db' : Database} {alert : Alert} {row row' : Incident}

theorem allGraded_merged {alertIds : List Permissions.Uuid} (h : Merged db db' row row' alertIds)
    (hall : AllGraded db) (hrow : Graded row') : AllGraded db' := by
  intro r hr
  rcases (h.mem r).mp hr with rfl | ⟨hold, _⟩
  · exact hrow
  · exact hall r hold

theorem graded_refreshCredential (correlationKey : String) (username sourceIp : Option String)
    (linked : List Alert) (firstSeen lastSeen : Permissions.Timestamp) :
    Graded (refreshCredential env db correlationKey username sourceIp linked firstSeen lastSeen
      row) where
  nonneg := (score_range env linked).1
  le_hundred := (score_range env linked).2
  severity := rfl

theorem graded_refreshFinding {linked : List Alert} {topScore : Int}
    (lastSeen : Permissions.Timestamp) (htop : topScore ≤ 100) :
    Graded (refreshFinding env db linked topScore lastSeen row) where
  nonneg := le_max_of_le_left (score_range env linked).1
  le_hundred := max_le (score_range env linked).2 htop
  severity := rfl

theorem graded_manualIncident {payload : IncidentCreate}
    (h : payload.severity ∈ manualScores.map Prod.fst) (id : Permissions.Uuid) :
    Graded (manualIncident env payload id) := by
  obtain ⟨p, hp, hseverity⟩ := List.mem_map.mp h
  have hsome : manualScores.lookup payload.severity ≠ none := by
    intro hnone
    have hne := List.lookup_eq_none_iff.mp hnone p hp
    rw [hseverity] at hne
    exact absurd hne (by simp)
  obtain ⟨score, hscore⟩ := Option.ne_none_iff_exists'.mp hsome
  obtain ⟨hnonneg, hle, hgraded⟩ := graded_of_lookup manualScores_graded hscore
  have hrisk : (manualIncident env payload id).riskScore = score := by
    simp only [manualIncident, hscore, Option.getD_some]
  refine ⟨?_, ?_, ?_⟩
  · rw [hrisk]; exact hnonneg
  · rw [hrisk]; exact hle
  · rw [hrisk]; exact hgraded

theorem allGraded_correlateAlert (hall : AllGraded db)
    (h : correlateAlert env db alert = some db') : AllGraded db' := by
  cases correlateAlert_cases h with
  | ignored _ _ hsame =>
      rw [hsame]
      exact hall
  | credential row row' firstSeen lastSeen _ _ hmerged _ hrefresh =>
      refine allGraded_merged hmerged hall ?_
      rw [hrefresh]
      exact graded_refreshCredential _ _ _ _ _ _
  | finding event row row' scores topScore lastSeen _ _ hmerged _ hrefresh hscored htop =>
      refine allGraded_merged hmerged hall ?_
      rw [hrefresh]
      have hmem : topScore ∈ scores := List.max?_mem htop
      obtain ⟨item, _, hlookup⟩ := Option.mem_of_mapM hscored hmem
      exact graded_refreshFinding lastSeen (graded_of_lookup findingScores_graded hlookup).2.1

theorem allGraded_foldlM {α : Type} {f : Database → α → Option Database}
    (hf : ∀ {db db' x}, AllGraded db → f db x = some db' → AllGraded db') {xs : List α}
    (hall : AllGraded db) (h : xs.foldlM f db = some db') : AllGraded db' := by
  induction xs generalizing db with
  | nil =>
      cases h
      exact hall
  | cons x xs ih =>
      obtain ⟨db1, h1, h2⟩ := Option.bind_eq_some_iff.mp h
      exact ih (hf hall h1) h2

theorem allGraded_ingestEvent {payload : EventCreate} (hall : AllGraded db)
    (h : ingestEvent env db payload = some db') : AllGraded db' := by
  obtain ⟨⟨db1, alerts⟩, h1, h2⟩ := Option.bind_eq_some_iff.mp h
  have hdetected : AllGraded db1 := by
    unfold AllGraded
    rw [(runDetection_cases h1).incidents]
    exact hall
  exact allGraded_foldlM (fun hall h => allGraded_correlateAlert hall h) hdetected h2

def Request.Valid : Request → Prop
  | .createManualIncident payload => payload.severity ∈ Investigation.severities
  | _ => True

instance : DecidablePred Request.Valid
  | .createManualIncident payload =>
      inferInstanceAs (Decidable (payload.severity ∈ Investigation.severities))
  | .createEvent _ => inferInstanceAs (Decidable True)
  | .createEventsBulk _ => inferInstanceAs (Decidable True)

theorem allGraded_handle {request : Request} (hvalid : request.Valid) (hall : AllGraded db)
    (h : handle env db request = some db') : AllGraded db' := by
  cases request with
  | createEvent payload => exact allGraded_ingestEvent hall h
  | createEventsBulk payloads =>
      exact allGraded_foldlM (fun hall h => allGraded_ingestEvent hall h) hall h
  | createManualIncident payload =>
      cases h
      intro row hrow
      rcases List.mem_append.mp hrow with hold | hnew
      · exact hall row hold
      · obtain rfl := List.mem_singleton.mp hnew
        exact graded_manualIncident hvalid db.nextId

end Steps

section Runs

theorem severity_matches_score (env : Env) (db : Database)
    (h : Run (handle env) (fun _ request => request.Valid) Database.empty db) :
    ∀ row ∈ db.incidents, 0 ≤ row.riskScore ∧ row.riskScore ≤ 100 ∧
      row.severity = severityFromScore row.riskScore := by
  have hempty : AllGraded Database.empty := fun row hrow => by cases hrow
  have hall : AllGraded db :=
    h.invariant (fun _ _ _ hall hvalid hs => allGraded_handle hvalid hall hs) hempty
  intro row hrow
  exact ⟨(hall row hrow).nonneg, (hall row hrow).le_hundred, (hall row hrow).severity⟩

def mixedRequests : List Request :=
  [.createManualIncident victimIncident,
    .createEvent (finding "opened" 10 (some "admin") none "account" "finding"),
    .createEventsBulk victimAttack,
    .createManualIncident { victimIncident with severity := "low" }]

theorem mixed_severities_match :
    ∃ db, Run (handle plainEnv) (fun _ request => request.Valid) Database.empty db ∧
      db.incidents.map (fun row => (row.severity, row.riskScore)) =
        [("high", 75), ("medium", 50), ("low", 30)] ∧
      ∀ row ∈ db.incidents, 0 ≤ row.riskScore ∧ row.riskScore ≤ 100 ∧
        row.severity = severityFromScore row.riskScore := by
  have hany : (execWhile (handle plainEnv) (fun _ request => decide request.Valid) Database.empty
      mixedRequests).any (fun db => decide (
        db.incidents.map (fun row => (row.severity, row.riskScore)) =
          [("high", 75), ("medium", 50), ("low", 30)])) = true := by
    decide
  obtain ⟨db, hrun, hdb⟩ := run_of_execWhile_any hany
  have hvalid := hrun.mono fun _ _ hok => of_decide_eq_true hok
  exact ⟨db, hvalid, of_decide_eq_true hdb, severity_matches_score plainEnv db hvalid⟩

end Runs

end Correlation

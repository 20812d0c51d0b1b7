import AiSoc.Correlation.Ingestion
import AiSoc.Correlation.Matches
import Mathlib.Algebra.BigOperators.Group.List.Basic
import Mathlib.Algebra.Order.Field.Rat
import Mathlib.Data.Rat.Floor
import Mathlib.Tactic.Linarith
import Mathlib.Tactic.NormNum

namespace Correlation

open Permissions (Uuid Timestamp)
open PyFloat (toRat)

section ExactScores

-- int() of a number
def truncate (q : Rat) : Int :=
  if 0 ≤ q then ⌊q⌋ else ⌈q⌉

def mean (values : List Rat) : Rat :=
  values.sum / values.length

def exactConfidenceScore (confidences : List PyFloat) (multiplier : Int) : Int :=
  truncate (mean (confidences.map toRat) * multiplier)

-- the default settings, and the mean in exact arithmetic
def exactEnv (env : Env) : Env :=
  { env with settings := {}, confidenceScore := exactConfidenceScore }

variable {values : List Rat} {low high : Rat}

theorem sum_bounds (h : ∀ value ∈ values, low ≤ value ∧ value ≤ high) :
    low * values.length ≤ values.sum ∧ values.sum ≤ high * values.length := by
  induction values with
  | nil => simp
  | cons value values ih =>
      obtain ⟨hlow, hhigh⟩ := h value List.mem_cons_self
      obtain ⟨hlow', hhigh'⟩ := ih fun other hother => h other (List.mem_cons_of_mem _ hother)
      simp only [List.sum_cons, List.length_cons, Nat.cast_add, Nat.cast_one, mul_add, mul_one]
      constructor
      · linarith
      · linarith

theorem mean_bounds (hne : values ≠ []) (h : ∀ value ∈ values, low ≤ value ∧ value ≤ high) :
    low ≤ mean values ∧ mean values ≤ high := by
  obtain ⟨hlow, hhigh⟩ := sum_bounds h
  have hpos : (0 : Rat) < values.length := Nat.cast_pos.mpr (List.length_pos_iff.mpr hne)
  exact ⟨(le_div_iff₀ hpos).mpr hlow, (div_le_iff₀ hpos).mpr hhigh⟩

theorem truncate_bounds {q : Rat} {a b : Int} (ha : 0 ≤ a) (hlow : (a : Rat) ≤ q)
    (hhigh : q ≤ b) : a ≤ truncate q ∧ truncate q ≤ b := by
  have hnonneg : 0 ≤ q := le_trans (Int.cast_nonneg ha) hlow
  rw [truncate, if_pos hnonneg]
  refine ⟨Int.le_floor.mpr hlow, ?_⟩
  exact Int.cast_le.mp (le_trans (Int.floor_le q) hhigh)

end ExactScores

section Emission

def scoredRules : List Rule :=
  [bruteForce, passwordSpray, suspiciousPrivilegeChange, largeDownload, loginAfterFailures,
    cloudFinding]

def Emitted (alert : Alert) : Prop :=
  ∃ rule ∈ scoredRules, ∃ env db event result id createdAt,
    rule env db event = some (some result) ∧ alert = buildAlert event result id createdAt

def Confident (confidence : PyFloat) : Prop :=
  3 / 4 ≤ toRat confidence ∧ toRat confidence ≤ 9 / 10

theorem confident_decimal {digits places : Nat} (h : digits % 10 ≠ 0)
    (hlow : 3 * 10 ^ (places + 1) ≤ 4 * digits) (hhigh : 10 * digits ≤ 9 * 10 ^ (places + 1)) :
    Confident (decimal digits (.negSucc places) h) := by
  have hvalue : toRat (decimal digits (.negSucc places) h) = digits / 10 ^ (places + 1) := by
    have hmk : toRat (decimal digits (.negSucc places) h) = mkRat digits (10 ^ (places + 1)) := rfl
    rw [hmk, Rat.mkRat_eq_div]
    push_cast
    rfl
  have hpos : (0 : Rat) < 10 ^ (places + 1) := by positivity
  have hlow' : (3 : Rat) * 10 ^ (places + 1) ≤ 4 * digits := by exact_mod_cast hlow
  have hhigh' : (10 : Rat) * digits ≤ 9 * 10 ^ (places + 1) := by exact_mod_cast hhigh
  rw [Confident, hvalue, le_div_iff₀ hpos, div_le_iff₀ hpos]
  constructor
  · linarith
  · linarith

variable {env : Env} {db : Database} {event : Event} {result : DetectionResult}

theorem confident_of_rule {rule : Rule} (hrule : rule ∈ scoredRules)
    (h : rule env db event = some (some result)) : Confident result.confidence := by
  simp only [scoredRules, List.mem_cons, List.not_mem_nil, or_false] at hrule
  rcases hrule with rfl | rfl | rfl | rfl | rfl | rfl
  · obtain ⟨_, _, _, _, _, _, hdetects⟩ := detects_bruteForce h
    rw [hdetects.confidence]
    exact @confident_decimal 9 0 _ (by decide) (by decide)
  · obtain ⟨_, _, _, _, hdetects⟩ := detects_passwordSpray h
    rw [hdetects.confidence]
    exact @confident_decimal 88 1 _ (by decide) (by decide)
  · obtain ⟨_, hdetects⟩ := detects_suspiciousPrivilegeChange h
    rw [hdetects.confidence]
    exact @confident_decimal 82 1 _ (by decide) (by decide)
  · rw [(detects_largeDownload h).confidence]
    exact @confident_decimal 8 0 _ (by decide) (by decide)
  · obtain ⟨_, hdetects⟩ := detects_loginAfterFailures h
    rw [hdetects.confidence]
    exact @confident_decimal 86 1 _ (by decide) (by decide)
  · obtain ⟨confidence, hconfidence, hdetects⟩ := detects_cloudFinding h
    rw [hdetects.confidence]
    simp only [List.mem_cons, List.not_mem_nil, or_false] at hconfidence
    rcases hconfidence with rfl | rfl
    · exact @confident_decimal 9 0 _ (by decide) (by decide)
    · exact @confident_decimal 75 1 _ (by decide) (by decide)

theorem confident_of_emitted {alert : Alert} (h : Emitted alert) : Confident alert.confidence := by
  obtain ⟨rule, hrule, env, db, event, result, id, createdAt, hresult, rfl⟩ := h
  exact confident_of_rule hrule hresult

end Emission

section Monotonicity

variable {env : Env} {alerts alerts' : List Alert} {alert : Alert}

theorem confidenceScore_bounds (hne : alerts ≠ []) (h : ∀ alert ∈ alerts, Emitted alert) :
    15 ≤ exactConfidenceScore (alerts.map (·.confidence)) 20 ∧
      exactConfidenceScore (alerts.map (·.confidence)) 20 ≤ 18 := by
  have hvalues : ∀ value ∈ (alerts.map (·.confidence)).map toRat,
      3 / 4 ≤ value ∧ value ≤ 9 / 10 := by
    intro value hvalue
    obtain ⟨confidence, hconfidence, rfl⟩ := List.mem_map.mp hvalue
    obtain ⟨alert, halert, rfl⟩ := List.mem_map.mp hconfidence
    exact confident_of_emitted (h alert halert)
  have hvalues' : (alerts.map (·.confidence)).map toRat ≠ [] := by
    simpa using hne
  obtain ⟨hlow, hhigh⟩ := mean_bounds hvalues' hvalues
  refine truncate_bounds (by decide) ?_ ?_
  · push_cast
    linarith
  · push_cast
    linarith

theorem severityWeight_ge (severity : String) : 5 ≤ severityWeight {} severity := by
  unfold severityWeight
  split
  · decide
  · split
    · decide
    · split
      · decide
      · decide

theorem comboBonus_mono {ruleIds ruleIds' : List String} (h : ruleIds ⊆ ruleIds') :
    comboBonus {} ruleIds ≤ comboBonus {} ruleIds' := by
  have hcombo : (if loginAfterFailuresId ∈ ruleIds ∧
      (bruteForceId ∈ ruleIds ∨ passwordSprayId ∈ ruleIds) then (15 : Int) else 0) ≤
      if loginAfterFailuresId ∈ ruleIds' ∧
        (bruteForceId ∈ ruleIds' ∨ passwordSprayId ∈ ruleIds') then 15 else 0 := by
    split
    · rename_i hin
      rw [if_pos ⟨h hin.1, hin.2.imp (@h _) (@h _)⟩]
    · split
      · decide
      · decide
  have hsupport : (if suspiciousPrivilegeChangeId ∈ ruleIds ∨ largeDownloadId ∈ ruleIds then
      (10 : Int) else 0) ≤
      if suspiciousPrivilegeChangeId ∈ ruleIds' ∨ largeDownloadId ∈ ruleIds' then 10 else 0 := by
    split
    · rename_i hin
      rw [if_pos (hin.imp (@h _) (@h _))]
    · split
      · decide
      · decide
  exact Int.add_le_add hcombo hsupport

theorem comboBonus_eq {settings : Settings} {ruleIds ruleIds' : List String}
    (h : ∀ ruleId, ruleId ∈ ruleIds ↔ ruleId ∈ ruleIds') :
    comboBonus settings ruleIds = comboBonus settings ruleIds' := by
  simp only [comboBonus, h]

theorem score_append (hne : alerts ≠ []) (hemitted : ∀ alert ∈ alerts, Emitted alert)
    (halert : Emitted alert) :
    score (exactEnv env) alerts ≤ score (exactEnv env) (alerts ++ [alert]) := by
  have hne' : alerts ++ [alert] ≠ [] := List.append_ne_nil_of_left_ne_nil hne _
  have hemitted' : ∀ other ∈ alerts ++ [alert], Emitted other := by
    intro other hother
    rcases List.mem_append.mp hother with hold | hlast
    · exact hemitted other hold
    · rw [List.mem_singleton.mp hlast]
      exact halert
  have hbefore := (confidenceScore_bounds hne hemitted).2
  have hafter := (confidenceScore_bounds hne' hemitted').1
  have hweight := severityWeight_ge alert.severity
  have hbonus : comboBonus {} (alerts.map (·.ruleId)) ≤
      comboBonus {} ((alerts ++ [alert]).map (·.ruleId)) :=
    comboBonus_mono (List.map_subset _ (List.subset_append_left _ _))
  have hsum : ((alerts ++ [alert]).map fun alert => severityWeight {} alert.severity).sum =
      (alerts.map fun alert => severityWeight {} alert.severity).sum +
        severityWeight {} alert.severity := by
    rw [List.map_append, List.sum_append, List.map_singleton, List.sum_singleton]
  have hisEmpty : alerts.isEmpty = false := by simpa using hne
  have hisEmpty' : (alerts ++ [alert]).isEmpty = false := by simp
  simp only [score, exactEnv, hisEmpty, hisEmpty', Bool.false_eq_true, if_false, hsum]
  refine max_le_max (le_refl 0) (min_le_min (le_refl 100) ?_)
  omega

theorem score_perm (h : alerts.Perm alerts') :
    score (exactEnv env) alerts = score (exactEnv env) alerts' := by
  have hsum : (alerts.map fun alert => severityWeight {} alert.severity).sum =
      (alerts'.map fun alert => severityWeight {} alert.severity).sum := (h.map _).sum_eq
  have hconfidences : exactConfidenceScore (alerts.map (·.confidence)) =
      exactConfidenceScore (alerts'.map (·.confidence)) := by
    funext multiplier
    rw [exactConfidenceScore, exactConfidenceScore, mean, mean, ((h.map _).map toRat).sum_eq,
      ((h.map _).map toRat).length_eq]
  have hbonus : comboBonus {} (alerts.map (·.ruleId)) = comboBonus {} (alerts'.map (·.ruleId)) :=
    comboBonus_eq fun ruleId => (h.map _).mem_iff
  simp only [score, exactEnv, h.isEmpty_eq, hsum, hconfidences, hbonus]

theorem score_monotone_and_symmetric (env : Env) (alerts : List Alert) (hne : alerts ≠ [])
    (hemitted : ∀ alert ∈ alerts, Emitted alert) :
    (∀ alert, Emitted alert →
        score (exactEnv env) alerts ≤ score (exactEnv env) (alerts ++ [alert])) ∧
      ∀ alerts', alerts'.Perm alerts → score (exactEnv env) alerts' = score (exactEnv env) alerts :=
  ⟨fun _ halert => score_append hne hemitted halert, fun _ hperm => score_perm hperm⟩

theorem emitted_finding (env : Env) (db : Database) {event : Event}
    (h : event.eventType ∈ findingEventTypes) : ∃ alert, Emitted alert ∧ alert.eventId = event.id := by
  have hfinding : cloudFinding ∈ scoredRules := by simp [scoredRules]
  have hmatch : ∃ result, cloudFinding env db event = some (some result) := by
    unfold cloudFinding
    rw [if_neg (not_not.mpr h)]
    exact ⟨_, rfl⟩
  obtain ⟨result, hresult⟩ := hmatch
  exact ⟨buildAlert event result 0 0,
    ⟨cloudFinding, hfinding, env, db, event, result, 0, 0, hresult, rfl⟩, rfl⟩

def findingEvent (id : Uuid) (eventType : String) : Event :=
  normalizeEvent plainEnv id (telemetry "evt" eventType 0 (some "alice") none [])

theorem findings_raise_score :
    ∃ exposure exfiltration access, exposure.eventId = 7 ∧ exfiltration.eventId = 8 ∧
      access.eventId = 9 ∧
      score (exactEnv plainEnv) [exposure, exfiltration] ≤
        score (exactEnv plainEnv) ([exposure, exfiltration] ++ [access]) ∧
      score (exactEnv plainEnv) [exfiltration, exposure] =
        score (exactEnv plainEnv) [exposure, exfiltration] := by
  obtain ⟨exposure, hexposure, hseven⟩ := emitted_finding plainEnv .empty
    (by decide : (findingEvent 7 "secret_exposure").eventType ∈ findingEventTypes)
  obtain ⟨exfiltration, hexfiltration, height⟩ := emitted_finding plainEnv .empty
    (by decide : (findingEvent 8 "data_exfiltration").eventType ∈ findingEventTypes)
  obtain ⟨access, haccess, hnine⟩ := emitted_finding plainEnv .empty
    (by decide : (findingEvent 9 "access_key_used").eventType ∈ findingEventTypes)
  obtain ⟨hmonotone, hsymmetric⟩ := score_monotone_and_symmetric plainEnv
    [exposure, exfiltration] (List.cons_ne_nil _ _) (by simp [hexposure, hexfiltration])
  exact ⟨exposure, exfiltration, access, hseven, height, hnine, hmonotone access haccess,
    hsymmetric _ (List.Perm.swap ..)⟩

end Monotonicity

end Correlation

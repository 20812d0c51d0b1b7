import AiSoc.Correlation.Compromises
import AiSoc.Events.Overflow

namespace Events

open Permissions (Timestamp)
open Correlation Correlation.Database
open PyDatetime Transition

section Conditions

variable (env : Env) (mlActive : Bool) (db : Database) (event : Event)

structure DefaultWindows : Prop where
  bruteForce : env.settings.bruteForceWindowSeconds = 60
  passwordSpray : env.settings.passwordSprayWindowSeconds = 300
  privilegeChange : env.settings.privilegeChangeLookbackSeconds = 900
  loginAfterFailures : env.settings.loginAfterFailuresWindowSeconds = 900
  mlAggregation : env.mlAggregationWindowSeconds = 300
  lookback : env.settings.credentialCompromiseLookbackSeconds = 1800
  merge : env.settings.incidentMergeWindowSeconds = 3600

def reachSeconds : Int :=
  if event.eventType = "privilege_change" ∨ event.eventType = "login_success" then 900
  else if (event.eventType = "login_failure" ∧ truthyText event.sourceIp ≠ none) ∨
    mlActive = true then 300
  else 0

def row : Correlation.Event :=
  Correlation.normalizeEvent env.toEnv db.nextId event.toEventCreate

def rows : List Correlation.Event :=
  db.events ++ [row env db event]

def Attempts : Prop :=
  FailsOften env.toEnv (rows env db event) (row env db event) ∨
    FailsForMany env.toEnv (rows env db event) (row env db event)

def Succeeds : Prop :=
  SucceedsAfterFailures env.toEnv (rows env db event) (row env db event)

def Suspects : Prop :=
  Attempts env db event ∨ Succeeds env db event ∨
    ChangesPrivilegeAfterFailure env.toEnv (rows env db event) (row env db event) ∨
    DownloadsMuch env.toEnv (row env db event)

def Recalls (alert : Alert) : Prop :=
  alert ∈ db.alerts ∧ event.timestamp - seconds 1800 ≤ alert.lastSeen ∧
    alert.lastSeen ≤ event.timestamp ∧
    sameIdentity event.username event.sourceIp alert.username alert.sourceIp = true

def Compromises : Prop :=
  (Attempts env db event ∨ ∃ alert, Recalls db event alert ∧ alert.ruleId ∈ attemptRules) ∧
    (Succeeds env db event ∨ ∃ alert, Recalls db event alert ∧
      alert.ruleId = loginAfterFailuresId)

structure InWindows : Prop where
  lookback : minimum + seconds (reachSeconds mlActive event) ≤ event.timestamp
  finding : event.eventType ∈ findingEventTypes →
    minimum + days 90 ≤ event.timestamp ∧ event.timestamp + seconds 1 ≤ maximum
  suspicion : Suspects env db event → minimum + seconds 1800 ≤ event.timestamp
  compromise : Suspects env db event → Compromises env db event →
    minimum + seconds 3600 ≤ event.timestamp

def Representable (payload : EventCreate) : Prop :=
  minimum ≤ utc payload ∧ utc payload ≤ maximum

structure InRange (payload : EventCreate) : Prop where
  representable : Representable payload
  sent : ∀ n ∈ payload.bytesSent, n < 2 ^ 31
  received : ∀ n ∈ payload.bytesReceived, n < 2 ^ 31
  windows : ∀ event ∈ normalize payload, refused env db event = false →
    InWindows env mlActive db event

def Overflows (result : Except Failure Database) : Prop :=
  ∃ failure, (∃ reason, failure = .overflow reason) ∧ result = .error failure

end Conditions

section Normalized

variable {payload : EventCreate} {event : Event}

theorem normalize_eq_some (h : normalize payload = some event) :
    event.timestamp = utc payload ∧ Representable payload ∧
      event.toEventCreate.Valid ∧ integerColumns event = [payload.sourcePort,
        payload.destinationPort, payload.bytesSent, payload.bytesReceived] := by
  obtain ⟨timestamp, htimestamp, rfl⟩ := Option.map_eq_some_iff.mp h
  obtain ⟨hmin, hmax, rfl⟩ := normalizeTimestamp_eq_some.mp htimestamp
  exact ⟨rfl, ⟨hmin, hmax⟩, payload.knownSeverity, rfl⟩

theorem exists_normalize : (∃ event, normalize payload = some event) ↔ Representable payload := by
  constructor
  · rintro ⟨event, h⟩
    exact (normalize_eq_some h).2.1
  · rintro ⟨hmin, hmax⟩
    exact ⟨_, Option.map_eq_some_iff.mpr
      ⟨_, normalizeTimestamp_eq_some.mpr ⟨hmin, hmax, rfl⟩, rfl⟩⟩

theorem normalized_ok : normalized payload = .ok event ↔ normalize payload = some event := by
  rw [normalized]
  cases normalize payload with
  | none => exact iff_of_false (fun h => by cases h) fun h => by cases h
  | some found =>
      constructor
      · intro h
        cases h
        rfl
      · intro h
        cases h
        rfl

theorem columnsFit_iff (h : normalize payload = some event) :
    columnsFit event = true ↔
      (∀ n ∈ payload.bytesSent, n < 2 ^ 31) ∧ ∀ n ∈ payload.bytesReceived, n < 2 ^ 31 := by
  obtain ⟨_, _, _, hcolumns⟩ := normalize_eq_some h
  have hfits : ∀ column : Option Int, column.all int4 = true ↔ ∀ n ∈ column, int4 n = true := by
    intro column
    cases column with
    | none => exact iff_of_true rfl fun n hn => by cases hn
    | some n => simp
  have hport : ∀ column : Option Int, (∀ n ∈ column, isPort n) → ∀ n ∈ column, int4 n = true := by
    intro column hrange n hn
    obtain ⟨hlow, hhigh⟩ := hrange n hn
    exact decide_eq_true ⟨by omega, by omega⟩
  have hbytes : ∀ column : Option Int, (∀ n ∈ column, 0 ≤ n) →
      ((∀ n ∈ column, int4 n = true) ↔ ∀ n ∈ column, n < 2 ^ 31) := by
    intro column hnonneg
    refine forall₂_congr fun n hn => ?_
    have hpos := hnonneg n hn
    rw [int4, decide_eq_true_iff]
    omega
  rw [columnsFit, hcolumns]
  simp only [List.all_cons, List.all_nil, Bool.and_true, Bool.and_eq_true, hfits]
  rw [hbytes _ payload.bytesSent_nonneg, hbytes _ payload.bytesReceived_nonneg]
  constructor
  · rintro ⟨_, _, hsent, hreceived⟩
    exact ⟨hsent, hreceived⟩
  · rintro ⟨hsent, hreceived⟩
    exact ⟨hport _ payload.sourcePort_range, hport _ payload.destinationPort_range, hsent,
      hreceived⟩

end Normalized

section Lookbacks

variable {env : Env} {mlActive : Bool} {event : Event}

theorem mem_ruleWindows (hdefault : DefaultWindows env) {since : Int} :
    some since ∈ ruleWindows env mlActive event ↔
      ((event.eventType = "login_failure" ∧ truthyText event.sourceIp ≠ none) ∧
          (since = 60 ∨ since = 300)) ∨
        ((event.eventType = "privilege_change" ∨ event.eventType = "login_success") ∧
          since = 900) ∨ (mlActive = true ∧ since = 300) := by
  have hattempts : ∀ window : Int,
      some since = (if event.eventType ≠ "login_failure" ∨ truthyText event.sourceIp = none
        then none else some window) ↔
      (event.eventType = "login_failure" ∧ truthyText event.sourceIp ≠ none) ∧
        since = window := by
    intro window
    split
    · rename_i hguard
      refine iff_of_false (fun h => by cases h) fun h => ?_
      exact hguard.elim (fun hne => hne h.1.1) fun hip => h.1.2 hip
    · rename_i hguard
      obtain ⟨htype, hip⟩ := not_or.mp hguard
      rw [Option.some.injEq]
      exact ⟨fun h => ⟨⟨not_not.mp htype, hip⟩, h⟩, fun h => h.2⟩
  have htyped : ∀ (name : String) (window : Int),
      some since = (if event.eventType ≠ name then none else some window) ↔
      event.eventType = name ∧ since = window := by
    intro name window
    split
    · rename_i hguard
      exact iff_of_false (fun h => by cases h) fun h => hguard h.1
    · rename_i hguard
      rw [Option.some.injEq]
      exact ⟨fun h => ⟨not_not.mp hguard, h⟩, fun h => h.2⟩
  have hml : some since = mlAnomalyWindow env mlActive ↔ mlActive = true ∧ since = 300 := by
    rw [mlAnomalyWindow, hdefault.mlAggregation]
    cases mlActive with
    | false => exact iff_of_false (fun h => by cases h) fun h => Bool.false_ne_true h.1
    | true => exact ⟨fun h => ⟨rfl, Option.some.inj h⟩, fun h => congrArg some h.2⟩
  simp only [ruleWindows, List.mem_cons, List.not_mem_nil, or_false, bruteForceWindow,
    passwordSprayWindow, privilegeChangeWindow, loginAfterFailuresWindow, hattempts, htyped, hml,
    reduceCtorEq, false_or, hdefault.bruteForce, hdefault.passwordSpray, hdefault.privilegeChange,
    hdefault.loginAfterFailures]
  tauto

theorem lookbacks_iff (mlActive : Bool) (hdefault : DefaultWindows env)
    (hmax : event.timestamp ≤ maximum)
    (hmin : minimum ≤ event.timestamp) :
    (∃ sinces, lookbacks env mlActive event = some sinces) ↔
      minimum + seconds (reachSeconds mlActive event) ≤ event.timestamp := by
  rw [lookbacks, Option.exists_mapM_iff]
  have hwindow : ∀ since, 0 ≤ since ∧ since ≤ 90 * 86400 →
      ((∃ u, subtractSeconds event.timestamp since = some u) ↔
        minimum + seconds since ≤ event.timestamp) := fun since hrange =>
    subtractSeconds_past hrange hmax
  simp only [seconds] at hwindow ⊢
  constructor
  · intro hall
    have hreach : ∀ since, some since ∈ ruleWindows env mlActive event →
        0 ≤ since ∧ since ≤ 90 * 86400 → minimum + since * 1000000 ≤ event.timestamp :=
      fun since hmem hrange =>
        (hwindow since hrange).mp (hall since (List.reduceOption_mem_iff.mpr hmem))
    rw [reachSeconds]
    split
    · rename_i hlong
      exact hreach 900 ((mem_ruleWindows hdefault).mpr (.inr (.inl ⟨hlong, rfl⟩))) (by omega)
    · split
      · rename_i hshort
        refine hreach 300 ((mem_ruleWindows hdefault).mpr ?_) (by omega)
        exact hshort.elim (fun h => .inl ⟨h, .inr rfl⟩) fun h => .inr (.inr ⟨h, rfl⟩)
      · omega
  · intro hreach since hmem
    rw [reachSeconds] at hreach
    rcases (mem_ruleWindows hdefault).mp (List.reduceOption_mem_iff.mp hmem) with
      ⟨hfailure, hseconds⟩ | ⟨hlong, rfl⟩ | ⟨hactive, rfl⟩
    · refine (hwindow since (by omega)).mpr ?_
      split at hreach
      · omega
      · rw [if_pos (.inl hfailure)] at hreach
        omega
    · rw [if_pos hlong] at hreach
      exact (hwindow 900 (by omega)).mpr hreach
    · refine (hwindow 300 (by omega)).mpr ?_
      split at hreach
      · omega
      · rw [if_pos (.inr hactive)] at hreach
        exact hreach

end Lookbacks

section Raised

variable {env : Env} {db db1 : Database} {event : Event} {alerts : List Alert} {alert : Alert}

theorem rows_of_runDetection
    (h : runDetection env.toEnv db event.toEventCreate = some (db1, alerts)) :
    db1.events = rows env db event :=
  (runDetection_cases h).events

theorem signals (h : runDetection env.toEnv db event.toEventCreate = some (db1, alerts)) :
    alerts.map signal = (expectedRules env.toEnv (rows env db event) (row env db event)).map
      fun ruleId => (ruleId, event.username, event.sourceIp, event.timestamp) := by
  rw [signals_of_runDetection h, rows_of_runDetection h]
  rfl

theorem signal_of_mem (h : runDetection env.toEnv db event.toEventCreate = some (db1, alerts))
    (halert : alert ∈ alerts) :
    alert.ruleId ∈ expectedRules env.toEnv (rows env db event) (row env db event) ∧
      alert.username = event.username ∧ alert.sourceIp = event.sourceIp ∧
      alert.lastSeen = event.timestamp := by
  have hmem : signal alert ∈ alerts.map signal := List.mem_map_of_mem halert
  rw [signals h] at hmem
  obtain ⟨ruleId, hrule, heq⟩ := List.mem_map.mp hmem
  simp only [signal, Prod.mk.injEq] at heq
  obtain ⟨rfl, husername, hsourceIp, hlast⟩ := heq
  exact ⟨hrule, husername.symm, hsourceIp.symm, hlast.symm⟩

theorem exists_alert (h : runDetection env.toEnv db event.toEventCreate = some (db1, alerts))
    {ruleId : String}
    (hrule : ruleId ∈ expectedRules env.toEnv (rows env db event) (row env db event)) :
    ∃ alert ∈ alerts, alert.ruleId = ruleId := by
  have hmem : (ruleId, event.username, event.sourceIp, event.timestamp) ∈ alerts.map signal := by
    rw [signals h]
    exact List.mem_map_of_mem hrule
  obtain ⟨alert, halert, heq⟩ := List.mem_map.mp hmem
  exact ⟨alert, halert, congrArg Prod.fst heq⟩

theorem mem_expectedRules {ruleId : String} :
    ruleId ∈ expectedRules env.toEnv (rows env db event) (row env db event) ↔
      ∃ signature ∈ signatures, signature.1 = ruleId ∧
        signature.2 env.toEnv (rows env db event) (row env db event) := by
  classical
  simp only [expectedRules, List.mem_map, List.mem_filter, decide_eq_true_eq]
  constructor
  · rintro ⟨signature, ⟨hmem, hholds⟩, hid⟩
    exact ⟨signature, hmem, hid, hholds⟩
  · rintro ⟨signature, hmem, hid, hholds⟩
    exact ⟨signature, ⟨hmem, hholds⟩, hid⟩

theorem finding_expected :
    cloudFindingId ∈ expectedRules env.toEnv (rows env db event) (row env db event) ↔
      event.eventType ∈ findingEventTypes := by
  rw [mem_expectedRules]
  simp [signatures, bruteForceId, passwordSprayId, suspiciousPrivilegeChangeId, largeDownloadId,
    loginAfterFailuresId, mlAnomalyId, cloudFindingId, ReportsFinding]
  rfl

theorem attempt_expected :
    (∃ ruleId ∈ attemptRules,
      ruleId ∈ expectedRules env.toEnv (rows env db event) (row env db event)) ↔
      Attempts env db event := by
  simp [mem_expectedRules, signatures, attemptRules, bruteForceId, passwordSprayId,
    suspiciousPrivilegeChangeId, largeDownloadId, loginAfterFailuresId, mlAnomalyId,
    cloudFindingId, Attempts]

theorem success_expected :
    loginAfterFailuresId ∈ expectedRules env.toEnv (rows env db event) (row env db event) ↔
      Succeeds env db event := by
  rw [mem_expectedRules]
  simp [signatures, bruteForceId, passwordSprayId, suspiciousPrivilegeChangeId, largeDownloadId,
    loginAfterFailuresId, mlAnomalyId, cloudFindingId, Succeeds]

theorem suspicion_expected :
    (∃ ruleId ∈ allowedRules,
      ruleId ∈ expectedRules env.toEnv (rows env db event) (row env db event)) ↔
      Suspects env db event := by
  simp [mem_expectedRules, signatures, allowedRules, bruteForceId, passwordSprayId,
    suspiciousPrivilegeChangeId, largeDownloadId, loginAfterFailuresId, mlAnomalyId,
    cloudFindingId, Suspects, Attempts, Succeeds]
  tauto

end Raised

section Correlated

variable {env : Env} {db db1 : Database} {event : Event} {alerts : List Alert} {alert : Alert}

theorem rule_cases {ruleId : String} (hallowed : ruleId ∈ allowedRules)
    (hrule : ruleId ∈ expectedRules env.toEnv (rows env db event) (row env db event)) :
    (ruleId ∈ attemptRules ∧ event.eventType = "login_failure") ∨
      (ruleId = loginAfterFailuresId ∧ event.eventType = "login_success") ∨
      event.eventType ∈ ["privilege_change", "file_download", "resource_access"] := by
  obtain ⟨signature, hmem, rfl, hholds⟩ := mem_expectedRules.mp hrule
  simp only [signatures, List.mem_cons, List.not_mem_nil, or_false] at hmem
  rcases hmem with rfl | rfl | rfl | rfl | rfl | rfl | rfl
  · obtain ⟨_, htype, _⟩ := hholds
    exact .inl ⟨List.mem_cons_self, htype⟩
  · obtain ⟨_, htype, _⟩ := hholds
    exact .inl ⟨List.mem_cons_of_mem _ List.mem_cons_self, htype⟩
  · have htype : event.eventType = "privilege_change" := hholds.1
    exact .inr (.inr (htype ▸ List.mem_cons_self))
  · have htype : event.eventType = "file_download" ∨ event.eventType = "resource_access" :=
      hholds.1
    rcases htype with htype | htype
    · exact .inr (.inr (htype ▸ List.mem_cons_of_mem _ List.mem_cons_self))
    · refine .inr (.inr (htype ▸ ?_))
      exact List.mem_cons_of_mem _ (List.mem_cons_of_mem _ List.mem_cons_self)
  · exact .inr (.inl ⟨rfl, hholds.1⟩)
  · exact absurd hallowed (by decide)
  · exact absurd hallowed (by decide)

theorem attempts_type (h : Attempts env db event) : event.eventType = "login_failure" := by
  rcases h with ⟨_, htype, _⟩ | ⟨_, htype, _⟩
  · exact htype
  · exact htype

theorem attempt_of_attempts (hallowed : alert.ruleId ∈ allowedRules)
    (hrule : alert.ruleId ∈ expectedRules env.toEnv (rows env db event) (row env db event))
    (h : Attempts env db event) : alert.ruleId ∈ attemptRules := by
  have htype := attempts_type h
  rcases rule_cases hallowed hrule with ⟨hattempt, _⟩ | ⟨_, hother⟩ | hother
  · exact hattempt
  · exact absurd (htype.symm.trans hother) (by decide)
  · rw [htype] at hother
    exact absurd hother (by decide)

theorem success_of_succeeds (hallowed : alert.ruleId ∈ allowedRules)
    (hrule : alert.ruleId ∈ expectedRules env.toEnv (rows env db event) (row env db event))
    (h : Succeeds env db event) : alert.ruleId = loginAfterFailuresId := by
  have htype : event.eventType = "login_success" := h.1
  rcases rule_cases hallowed hrule with ⟨_, hother⟩ | ⟨hsuccess, _⟩ | hother
  · exact absurd (htype.symm.trans hother) (by decide)
  · exact hsuccess
  · rw [htype] at hother
    exact absurd hother (by decide)

theorem mem_relatedWith_of_recalls (hdefault : DefaultWindows env)
    (hd : runDetection env.toEnv db event.toEventCreate = some (db1, alerts))
    (halert : alert ∈ alerts) {a : Alert} (h : Recalls db event a) :
    a ∈ relatedWith env.toEnv db1 alert := by
  obtain ⟨hstored, hsince, htil, hsame⟩ := h
  obtain ⟨_, husername, hsourceIp, hlast⟩ := signal_of_mem hd halert
  refine mem_relatedWith ?_ ⟨?_, ?_, ?_⟩
  · rw [(runDetection_cases hd).stored]
    exact List.mem_append_left _ hstored
  · rw [lookback, hlast, hdefault.lookback]
    exact hsince
  · rw [hlast]
    exact htil
  · rw [husername, hsourceIp]
    exact hsame

theorem known_of_related (hdefault : DefaultWindows env)
    (hd : runDetection env.toEnv db event.toEventCreate = some (db1, alerts))
    (halert : alert ∈ alerts) {a : Alert} (h : a ∈ relatedWith env.toEnv db1 alert) :
    a.ruleId ∈ expectedRules env.toEnv (rows env db event) (row env db event) ∨
      Recalls db event a := by
  obtain ⟨hrule, husername, hsourceIp, hlast⟩ := signal_of_mem hd halert
  rcases relatedWith_cases h with rfl | hrelated
  · exact .inl hrule
  · obtain ⟨hmem, hp⟩ := Query.mem_select.mp hrelated
    simp only [Bool.and_eq_true, decide_eq_true_eq, lookback, husername, hsourceIp, hlast,
      hdefault.lookback] at hp
    rw [(runDetection_cases hd).stored] at hmem
    rcases List.mem_append.mp hmem with hold | hnew
    · exact .inr ⟨hold, hp.1.1, hp.1.2, hp.2⟩
    · exact .inl (signal_of_mem hd hnew).1

theorem candidates_iff (hdefault : DefaultWindows env) (hn : (db1.alerts.map (·.id)).Nodup)
    (hd : runDetection env.toEnv db event.toEventCreate = some (db1, alerts))
    (halert : alert ∈ alerts) (hallowed : alert.ruleId ∈ allowedRules) :
    candidateAlerts env.toEnv db1 alert ≠ [] ↔ Compromises env db event := by
  have hrule := (signal_of_mem hd halert).1
  have hself : alert ∈ relatedWith env.toEnv db1 alert := by
    refine self_mem_relatedWith hn ?_
    rw [(runDetection_cases hd).stored]
    exact List.mem_append_right _ halert
  constructor
  · intro hne
    obtain ⟨a, ha, b, hb, haRule, hbRule⟩ := pattern_of_candidates hne
    have hknown : ∀ c ∈ candidateAlerts env.toEnv db1 alert,
        c.ruleId ∈ expectedRules env.toEnv (rows env db event) (row env db event) ∨
          Recalls db event c := fun c hc =>
      known_of_related hdefault hd halert (mem_credentialCompromiseCandidates hc).1
    constructor
    · rcases hknown a ha with hown | hrecalls
      · exact .inl (attempt_expected.mp ⟨_, haRule, hown⟩)
      · exact .inr ⟨a, hrecalls, haRule⟩
    · rcases hknown b hb with hown | hrecalls
      · exact .inl (success_expected.mp (hbRule ▸ hown))
      · exact .inr ⟨b, hrecalls, hbRule⟩
  · rintro ⟨hattempt, hsuccess⟩
    obtain ⟨a, ha, haRule⟩ : ∃ a ∈ relatedWith env.toEnv db1 alert, a.ruleId ∈ attemptRules := by
      rcases hattempt with hown | ⟨a, hrecalls, haRule⟩
      · exact ⟨alert, hself, attempt_of_attempts hallowed hrule hown⟩
      · exact ⟨a, mem_relatedWith_of_recalls hdefault hd halert hrecalls, haRule⟩
    obtain ⟨b, hb, hbRule⟩ :
        ∃ b ∈ relatedWith env.toEnv db1 alert, b.ruleId = loginAfterFailuresId := by
      rcases hsuccess with hown | ⟨b, hrecalls, hbRule⟩
      · exact ⟨alert, hself, success_of_succeeds hallowed hrule hown⟩
      · exact ⟨b, mem_relatedWith_of_recalls hdefault hd halert hrecalls, hbRule⟩
    rw [candidateAlerts, candidates_of_pattern ha hb (.inl ⟨haRule, hbRule⟩)]
    refine List.ne_nil_of_mem (List.mem_filter.mpr ⟨ha, decide_eq_true ?_⟩)
    exact mem_allowedRules.2 _ haRule

def Fits (env : Env) (db : Database) (alert : Alert) : Prop :=
  ∃ sinces, ((correlationWindows env db alert).mapM fun p => subtractSeconds p.1 p.2) =
    some sinces

theorem fits_iff (hdefault : DefaultWindows env) (hn : (db1.alerts.map (·.id)).Nodup)
    (hd : runDetection env.toEnv db event.toEventCreate = some (db1, alerts))
    (halert : alert ∈ alerts) (hmax : event.timestamp ≤ maximum) :
    Fits env db1 alert ↔
      (alert.ruleId = cloudFindingId →
        minimum + days 90 ≤ event.timestamp ∧ event.timestamp + seconds 1 ≤ maximum) ∧
      (alert.ruleId ∈ allowedRules → minimum + seconds 1800 ≤ event.timestamp ∧
        (Compromises env db event → minimum + seconds 3600 ≤ event.timestamp)) := by
  have hlast := (signal_of_mem hd halert).2.2.2
  rw [Fits, Option.exists_mapM_iff, correlationWindows]
  split
  · rename_i hfinding
    have hother : alert.ruleId ∉ allowedRules := hfinding ▸ by decide
    have hfirst : alert.firstSeen = event.timestamp :=
      (((runDetection_cases hd).raised alert halert).finding hfinding).1
    simp only [List.forall_mem_cons, hfirst, hlast, days, seconds]
    rw [subtractSeconds_past (by omega) hmax, subtractSeconds_iff (by omega)]
    constructor
    · rintro ⟨hearly, hlate, _⟩
      exact ⟨fun _ => ⟨by lia, by lia⟩, fun h => absurd h hother⟩
    · rintro ⟨hwindow, _⟩
      obtain ⟨hearly, hlate⟩ := hwindow hfinding
      exact ⟨by lia, ⟨by lia, by lia⟩, fun p hp => absurd hp List.not_mem_nil⟩
  · rename_i hfinding
    split
    · rename_i hother
      refine iff_of_true (fun p hp => absurd hp List.not_mem_nil) ⟨?_, ?_⟩
      · exact fun h => absurd h hfinding
      · exact fun h => absurd h hother
    · rename_i hallowed
      have hcandidates := candidates_iff hdefault hn hd halert (not_not.mp hallowed)
      simp only [List.forall_mem_cons, hlast, hdefault.lookback, hdefault.merge, seconds]
      rw [subtractSeconds_past (by omega) hmax]
      split
      · rename_i hnone
        have hno : ¬ Compromises env db event := fun h => hcandidates.mpr h hnone
        constructor
        · rintro ⟨hlookback, _⟩
          exact ⟨fun h => absurd h hfinding, fun _ => ⟨hlookback, fun h => absurd h hno⟩⟩
        · rintro ⟨_, hwindow⟩
          exact ⟨(hwindow (not_not.mp hallowed)).1, fun p hp => absurd hp List.not_mem_nil⟩
      · rename_i hsome
        rw [List.forall_mem_cons, subtractSeconds_past (by omega) hmax]
        constructor
        · rintro ⟨hlookback, hmerge, _⟩
          exact ⟨fun h => absurd h hfinding, fun _ => ⟨hlookback, fun _ => hmerge⟩⟩
        · rintro ⟨_, hwindow⟩
          obtain ⟨hlookback, hmerge⟩ := hwindow (not_not.mp hallowed)
          exact ⟨hlookback, hmerge (hcandidates.mp hsome),
            fun p hp => absurd hp List.not_mem_nil⟩

theorem fits_all_iff (hdefault : DefaultWindows env) (hn : (db1.alerts.map (·.id)).Nodup)
    (hd : runDetection env.toEnv db event.toEventCreate = some (db1, alerts))
    (hmax : event.timestamp ≤ maximum) :
    (∀ alert ∈ alerts, Fits env db1 alert) ↔
      (event.eventType ∈ findingEventTypes →
        minimum + days 90 ≤ event.timestamp ∧ event.timestamp + seconds 1 ≤ maximum) ∧
      (Suspects env db event → minimum + seconds 1800 ≤ event.timestamp ∧
        (Compromises env db event → minimum + seconds 3600 ≤ event.timestamp)) := by
  constructor
  · intro hall
    constructor
    · intro hfinding
      obtain ⟨alert, halert, hrule⟩ := exists_alert hd (finding_expected.mpr hfinding)
      exact ((fits_iff hdefault hn hd halert hmax).mp (hall alert halert)).1 hrule
    · intro hsuspects
      obtain ⟨ruleId, hallowed, hexpected⟩ := suspicion_expected.mpr hsuspects
      obtain ⟨alert, halert, rfl⟩ := exists_alert hd hexpected
      exact ((fits_iff hdefault hn hd halert hmax).mp (hall alert halert)).2 hallowed
  · rintro ⟨hfinding, hsuspicion⟩ alert halert
    have hrule := (signal_of_mem hd halert).1
    refine (fits_iff hdefault hn hd halert hmax).mpr ⟨fun h => ?_, fun h => ?_⟩
    · exact hfinding (finding_expected.mp (h ▸ hrule))
    · exact hsuspicion (suspicion_expected.mp ⟨_, h, hrule⟩)

end Correlated

section Ingestions

variable {env : Env} {mlActive : Bool} {db db' : Database} {event : Event}
  {payload : EventCreate} {payloads : List Submission} {alert : Alert} {alerts : List Alert}

def Kept (db : Database) : Prop :=
  Consistent db [] ∧ Scored db

theorem fits_congr (h : db'.alerts = db.alerts) : Fits env db' alert ↔ Fits env db alert := by
  rw [Fits, Fits, correlationWindows, correlationWindows, candidateAlerts, candidateAlerts,
    relatedWith, relatedWith, relatedAlerts, relatedAlerts, h]

theorem correlateAlert_of_fits (hfits : Fits env db alert)
    (h : Correlation.correlateAlert env.toEnv db alert = some db') :
    correlateAlert env db alert = .ok db' := by
  obtain ⟨sinces, hsinces⟩ := hfits
  rw [correlateAlert, hsinces, h]

theorem correlateAlert_of_not_fits (hfits : ¬ Fits env db alert) :
    correlateAlert env db alert = .error (.overflow .correlation) := by
  rw [correlateAlert]
  split
  · rfl
  · rename_i sinces hsinces
    exact absurd ⟨sinces, hsinces⟩ hfits

theorem correlateAlert_cases (h : correlateAlert env db alert = .ok db') :
    Correlation.correlateAlert env.toEnv db alert = some db' := by
  rw [correlateAlert] at h
  split at h
  · cases h
  · split at h
    · cases h
    · rename_i hsome
      cases h
      exact hsome

theorem overflows_correlate (hc : Consistent db alerts) (hscored : Scored db) :
    Overflows (alerts.foldlM (correlateAlert env) db) ↔ ¬ ∀ alert ∈ alerts, Fits env db alert := by
  induction alerts generalizing db with
  | nil =>
      refine iff_of_false ?_ fun h => h fun alert halert => absurd halert List.not_mem_nil
      rintro ⟨_, _, h⟩
      cases h
  | cons alert alerts ih =>
      rw [List.foldlM_cons, List.forall_mem_cons]
      by_cases hfits : Fits env db alert
      · obtain ⟨db1, h1⟩ := total_correlateAlert env.toEnv hc hscored
        have hc1 : Consistent db1 alerts :=
          consistent_correlated hc (Correlation.correlateAlert_cases h1)
        have hrest := ih hc1 (scored_correlate h1 hscored)
        rw [correlateAlert_of_fits hfits h1]
        refine Iff.trans hrest (not_congr ?_)
        have hsame : ∀ other, Fits env db1 other ↔ Fits env db other := fun _ =>
          fits_congr (correlateAlert_frame h1).2
        simp only [hsame, hfits, true_and]
      · rw [correlateAlert_of_not_fits hfits]
        exact iff_of_true ⟨_, ⟨_, rfl⟩, rfl⟩ fun h => hfits h.1

theorem correlate_cases (h : alerts.foldlM (correlateAlert env) db = .ok db') :
    correlate env.toEnv db alerts = some db' := by
  induction alerts generalizing db with
  | nil =>
      cases h
      rfl
  | cons alert alerts ih =>
      rw [List.foldlM_cons] at h
      obtain ⟨db1, h1, h2⟩ := Except.bind_ok_iff.mp h
      rw [correlate, List.foldlM_cons, correlateAlert_cases h1]
      exact ih h2

theorem ingestEvent_of_ingest (h : ingest env mlActive db event = .ok db') :
    ingestEvent env.toEnv db event.toEventCreate = some db' := by
  rw [ingest] at h
  split at h
  · cases h
  · split at h
    · cases h
    · split at h
      · cases h
      · split at h
        · cases h
        · rename_i db1 alerts hd
          rw [ingestEvent, hd]
          exact correlate_cases h

theorem overflows_error {failure : Failure} :
    Overflows (.error failure) ↔ ∃ reason, failure = .overflow reason := by
  constructor
  · rintro ⟨_, hreason, h⟩
    cases h
    exact hreason
  · intro hreason
    exact ⟨failure, hreason, rfl⟩

theorem overflows_ingest (hdefault : DefaultWindows env) (hsensible : Sensible env.toEnv)
    (hkept : Kept db) (h : normalize payload = some event) :
    ¬ Overflows (ingest env mlActive db event) ↔
      columnsFit event = true ∧
        (refused env db event = false → InWindows env mlActive db event) := by
  obtain ⟨htime, ⟨hmin, hmax⟩, hvalid, _⟩ := normalize_eq_some h
  rw [← htime] at hmin hmax
  have hlookbacks := lookbacks_iff mlActive hdefault hmax hmin
  rw [ingest]
  split
  · rename_i hunfit
    rw [overflows_error, hunfit]
    exact iff_of_false (fun hno => hno ⟨_, rfl⟩) fun hfit => by cases hfit.1
  · rename_i hfit
    rw [Bool.not_eq_false] at hfit
    split
    · rename_i hrefused
      rw [overflows_error, hrefused]
      refine iff_of_true ?_ ⟨hfit, fun hno => by cases hno⟩
      rintro ⟨_, hreason⟩
      cases hreason
    · rename_i hrefused
      rw [Bool.not_eq_true] at hrefused
      have hfresh : newEventId env.toEnv db event.toEventCreate ∉
          db.events.map (·.eventId) :=
        of_decide_eq_false (Bool.or_eq_false_iff.mp hrefused).1
      split
      · rename_i hnone
        rw [overflows_error]
        refine iff_of_false (fun hno => hno ⟨_, rfl⟩) fun hall => ?_
        obtain ⟨sinces, hsome⟩ := hlookbacks.mpr (hall.2 hrefused).lookback
        rw [hnone] at hsome
        cases hsome
      · rename_i sinces hsinces
        obtain ⟨⟨db1, alerts⟩, hd⟩ := total_runDetection hsensible hfresh
        have hc1 : Consistent db1 alerts := hkept.1.detect (runDetection_cases hd)
        have hall := fits_all_iff hdefault hc1.alerts_nodup hd hmax
        simp only [hd]
        rw [overflows_correlate hc1 (scored_detected hvalid hkept.2 hd), not_not, hall]
        constructor
        · rintro ⟨hfinding, hsuspicion⟩
          exact ⟨hfit, fun _ => ⟨hlookbacks.mp ⟨sinces, hsinces⟩, hfinding,
            fun hs => (hsuspicion hs).1, fun hs => (hsuspicion hs).2⟩⟩
        · rintro ⟨_, hwindows⟩
          obtain ⟨_, hfinding, hsuspicion, hcompromise⟩ := hwindows hrefused
          exact ⟨hfinding, fun hs => ⟨hsuspicion hs, hcompromise hs⟩⟩

theorem overflows_createEvent (hdefault : DefaultWindows env) (hsensible : Sensible env.toEnv)
    (hkept : Kept db) (payload : EventCreate) :
    ¬ Overflows (createEvent env mlActive db payload) ↔ InRange env mlActive db payload := by
  rw [createEvent]
  cases hnormal : normalize payload with
  | none =>
      have hnormalized : normalized payload = .error (.overflow .timestamp) := by
        rw [normalized, hnormal]
      rw [hnormalized]
      refine iff_of_false (fun hno => hno ⟨_, ⟨_, rfl⟩, rfl⟩) fun hrange => ?_
      obtain ⟨event, hevent⟩ := exists_normalize.mpr hrange.representable
      rw [hnormal] at hevent
      cases hevent
  | some event =>
      rw [normalized_ok.mpr hnormal]
      refine Iff.trans (overflows_ingest hdefault hsensible hkept hnormal) ?_
      rw [columnsFit_iff hnormal]
      constructor
      · rintro ⟨⟨hsent, hreceived⟩, hwindows⟩
        refine ⟨(normalize_eq_some hnormal).2.1, hsent, hreceived, fun other hother => ?_⟩
        cases hnormal.symm.trans hother
        exact hwindows
      · intro hrange
        exact ⟨⟨hrange.sent, hrange.received⟩, hrange.windows event hnormal⟩

theorem kept_createEvent (hkept : Kept db) (h : createEvent env mlActive db payload = .ok db') :
    Kept db' := by
  obtain ⟨event, hevent, hingest⟩ := Except.bind_ok_iff.mp h
  have hvalid := (normalize_eq_some (normalized_ok.mp hevent)).2.2.1
  exact (kept_of_ingestEvent hkept hvalid (ingestEvent_of_ingest hingest)).1

def ingestNext (env : Env) (db : Database) (p : Submission) : Option Database :=
  (createEvent env p.2 db p.1).toOption

theorem kept_ingestNext (p : Submission) (hkept : Kept db) (h : ingestNext env db p = some db') :
    Kept db' := by
  rw [ingestNext] at h
  cases hresult : createEvent env p.2 db p.1 with
  | error failure =>
      rw [hresult] at h
      cases h
  | ok db1 =>
      rw [hresult] at h
      cases h
      exact kept_createEvent hkept hresult

theorem createEventsBulk_eq (h : ∀ p ∈ payloads, Representable p.1) :
    createEventsBulk env db payloads =
      payloads.foldlM (fun db p => createEvent env p.2 db p.1) db := by
  have hnormalized : ∀ p ∈ payloads, ∃ pair,
      ((normalized p.1).map fun event => (event, p.2)) = .ok pair := by
    intro p hp
    obtain ⟨event, hevent⟩ := exists_normalize.mpr (h p hp)
    exact ⟨(event, p.2), by rw [normalized_ok.mpr hevent]; rfl⟩
  rw [createEventsBulk, Except.mapM_foldlM hnormalized]
  congr 1
  funext db p
  rw [createEvent]
  cases normalized p.1 with
  | error failure => rfl
  | ok event => rfl

theorem overflows_of_not_representable (env : Env) (db : Database) {p : Submission}
    (hp : p ∈ payloads) (h : ¬ Representable p.1) : Overflows (createEventsBulk env db payloads) := by
  cases hall : payloads.mapM (fun p => (normalized p.1).map fun event => (event, p.2)) with
  | error failure =>
      obtain ⟨q, _, hq⟩ := Except.mem_of_mapM_error hall
      refine ⟨failure, ⟨.timestamp, ?_⟩, ?_⟩
      · rw [normalized] at hq
        split at hq
        · cases hq
          rfl
        · cases hq
      · rw [createEventsBulk, hall]
        rfl
  | ok events =>
      obtain ⟨pair, hpair⟩ := Except.exists_mapM_ok_iff.mp ⟨events, hall⟩ p hp
      cases hevent : normalized p.1 with
      | error failure =>
          rw [hevent] at hpair
          cases hpair
      | ok event => exact absurd (normalize_eq_some (normalized_ok.mp hevent)).2.1 h

theorem overflows_createEventsBulk (hdefault : DefaultWindows env)
    (hsensible : Sensible env.toEnv) (hkept : Kept db) (payloads : List Submission) :
    ¬ Overflows (createEventsBulk env db payloads) ↔ (∀ p ∈ payloads, Representable p.1) ∧
      Along (ingestNext env) (fun db p => InRange env p.2 db p.1) db payloads := by
  by_cases hall : ∀ p ∈ payloads, Representable p.1
  · rw [createEventsBulk_eq hall, and_iff_right hall]
    refine Iff.trans (foldlM_error_iff payloads db) ?_
    exact along_congr (fun _ p _ hkept h => kept_ingestNext p hkept h)
      (fun _ p hkept => overflows_createEvent hdefault hsensible hkept p.1) hkept payloads
  · refine iff_of_false (fun hno => ?_) fun h => hall h.1
    refine hall fun p hp => ?_
    by_contra hp'
    exact hno (overflows_of_not_representable env db hp hp')

theorem kept_bulk (hkept : Kept db) (h : createEventsBulk env db payloads = .ok db') :
    Kept db' := by
  have hall : ∀ p ∈ payloads, Representable p.1 := by
    intro p hp
    by_contra hp'
    obtain ⟨_, _, herror⟩ := overflows_of_not_representable env db hp hp'
    rw [h] at herror
    cases herror
  rw [createEventsBulk_eq hall] at h
  clear hall
  induction payloads generalizing db with
  | nil =>
      cases h
      exact hkept
  | cons p payloads ih =>
      rw [List.foldlM_cons] at h
      obtain ⟨db1, h1, h2⟩ := Except.bind_ok_iff.mp h
      exact ih (kept_createEvent hkept h1) h2

theorem kept_step {request : Request} (hkept : Kept db) (h : step env db request = some db') :
    Kept db' := by
  cases request with
  | createEvent mlActive payload => exact kept_ingestNext (payload, mlActive) hkept h
  | createEventsBulk payloads =>
      cases hresult : createEventsBulk env db payloads with
      | error failure =>
          rw [step, hresult] at h
          cases h
      | ok db1 =>
          rw [step, hresult] at h
          cases h
          exact kept_bulk hkept hresult
  | createManualIncident payload =>
      cases h
      exact ⟨hkept.1.createManualIncident payload, hkept.2⟩

theorem kept_run (h : Run (step env) anyStep Database.empty db) : Kept db := by
  refine h.invariant (P := Kept) (fun _ _ _ hkept _ hstep => kept_step hkept hstep)
    ⟨consistent_empty, ?_⟩
  intro alert halert
  cases halert

theorem ingestion_in_range_iff (env : Env) (hdefault : DefaultWindows env)
    (hsensible : Sensible env.toEnv) (db : Database)
    (hrun : Run (step env) anyStep Database.empty db) :
    (∀ mlActive payload, ¬ Overflows (createEvent env mlActive db payload) ↔
      InRange env mlActive db payload) ∧
    ∀ payloads, ¬ Overflows (createEventsBulk env db payloads) ↔
      (∀ p ∈ payloads, Representable p.1) ∧
        Along (ingestNext env) (fun db p => InRange env p.2 db p.1) db payloads :=
  ⟨fun _ payload => overflows_createEvent hdefault hsensible (kept_run hrun) payload,
    fun payloads => overflows_createEventsBulk hdefault hsensible (kept_run hrun) payloads⟩

end Ingestions

section Examples

instance (result : Except Failure Database) : Decidable (Overflows result) :=
  match result with
  | .error (.overflow reason) => isTrue (overflows_error.mpr ⟨reason, rfl⟩)
  | .error .refused => isFalse fun h => by
      obtain ⟨_, hreason⟩ := overflows_error.mp h
      cases hreason
  | .error .raised => isFalse fun h => by
      obtain ⟨_, hreason⟩ := overflows_error.mp h
      cases hreason
  | .ok _ => isFalse fun h => by
      obtain ⟨_, _, hresult⟩ := h
      cases hresult

def plainEnv : Env where
  toEnv := Correlation.plainEnv
  accepts _ := true

def plainEvent (eventId : String) (wall offset : Int) (eventType : String) (bytesSent : Option Int)
    (wall_range : minimum ≤ wall ∧ wall ≤ maximum)
    (offset_range : ∀ shift ∈ some offset, -microsecondsPerDay < shift ∧ shift < microsecondsPerDay)
    (knownType : eventType ∈ Investigation.eventTypes)
    (bytesSent_nonneg : ∀ n ∈ bytesSent, 0 ≤ n) : EventCreate where
  timestamp := ⟨wall, some offset, wall_range, offset_range⟩
  source := "fw"
  sourceType := "app"
  eventType := eventType
  category := "network"
  severity := none
  eventId := some eventId
  username := none
  sourceIp := none
  destinationIp := none
  sourcePort := none
  destinationPort := none
  hostname := none
  action := none
  status := none
  resource := none
  bytesSent := bytesSent
  bytesReceived := none
  metadata := []
  aware := Option.some_ne_none offset
  knownType := knownType
  knownSeverity _ h := absurd h (Option.not_mem_none _)
  sourcePort_range := port_none
  destinationPort_range := port_none
  bytesSent_nonneg := bytesSent_nonneg
  bytesReceived_nonneg := nonneg_none

-- 2026-01-01T00:00:00Z with 2 GiB sent
def largeTransfer : EventCreate :=
  plainEvent "large" 1767225600000000 0 "network_connection" (some 2147483648) (by decide)
    (by decide) (by decide) (by decide)

-- 0001-01-01T00:00:00+01:00
def earliestEast : EventCreate :=
  plainEvent "east" minimum 3600000000 "logout" none (by decide) (by decide) (by decide)
    (by decide)

-- 0001-01-01T00:00:00Z
def earliestLogin : EventCreate :=
  plainEvent "login" minimum 0 "login_success" none (by decide) (by decide) (by decide)
    (by decide)

-- 0001-02-01T00:00:00Z
def earlyFinding : EventCreate :=
  plainEvent "early" (minimum + days 31) 0 "cloud_finding" none (by decide) (by decide)
    (by decide) (by decide)

-- 2026-01-01T00:00:00Z
def smallTransfer : EventCreate :=
  plainEvent "small" 1767225600000000 0 "network_connection" (some 1) (by decide) (by decide)
    (by decide) (by decide)

def recentFinding : EventCreate :=
  plainEvent "recent" 1767225600000000 0 "cloud_finding" none (by decide) (by decide)
    (by decide) (by decide)

theorem findings_in_range : ∃ db, Run (step plainEnv) anyStep Database.empty db ∧
    db.events ≠ [] ∧ InRange plainEnv false db recentFinding ∧
    ¬ InRange plainEnv false db earlyFinding := by
  have hany : (execAll (step plainEnv) Database.empty [.createEvent false smallTransfer]).any
      (fun db => decide (db.events.length = 1 ∧
        ¬ Overflows (createEvent plainEnv false db recentFinding) ∧
          Overflows (createEvent plainEnv false db earlyFinding))) = true := by
    decide
  obtain ⟨db, hrun, hdb⟩ := run_of_execAll_any hany
  obtain ⟨hlength, hrecent, hearly⟩ := of_decide_eq_true hdb
  have hiff := (ingestion_in_range_iff plainEnv ⟨rfl, rfl, rfl, rfl, rfl, rfl, rfl⟩
    ⟨by decide, by decide, fun _ _ => rfl⟩ db hrun).1 false
  refine ⟨db, hrun, ?_, (hiff recentFinding).mp hrecent, fun h => (hiff earlyFinding).mpr h hearly⟩
  exact List.ne_nil_of_length_eq_add_one hlength

theorem valid_events_overflow :
    Overflows (createEvent plainEnv false Database.empty largeTransfer) ∧
      Overflows (createEvent plainEnv false Database.empty earliestEast) ∧
      Overflows (createEvent plainEnv false Database.empty earliestLogin) ∧
      Overflows (createEvent plainEnv false Database.empty earlyFinding) ∧
      ¬ Overflows (createEvent plainEnv false Database.empty smallTransfer) ∧
      Overflows (createEventsBulk plainEnv Database.empty
        [(smallTransfer, false), (largeTransfer, false)]) := by
  decide

end Examples

end Events

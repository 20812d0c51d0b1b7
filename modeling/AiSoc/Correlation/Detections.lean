import AiSoc.Correlation.Reachable

namespace Correlation

open Permissions (Uuid Timestamp)
open PyStr Database Query Transition

section Signatures

variable (env : Env) (events : List Event) (event : Event)

def failuresFrom (sourceIp : String) (since til : Timestamp) : List Event :=
  events.filter fun event => isLoginFailure since til event && event.sourceIp = some sourceIp

def failuresOf (username sourceIp : Option String) (since til : Timestamp) : List Event :=
  events.filter fun event => isLoginFailure since til event &&
    sameIdentity username sourceIp event.username event.sourceIp

def usersFailing (sourceIp : String) (since til : Timestamp) : List String :=
  ((failuresFrom events sourceIp since til).filterMap (·.username)).dedup

def FailsOften : Prop :=
  ∃ sourceIp, event.eventType = "login_failure" ∧ event.sourceIp = some sourceIp ∧ sourceIp ≠ "" ∧
    env.settings.bruteForceThreshold ≤ (failuresFrom events sourceIp
      (event.timestamp - seconds env.settings.bruteForceWindowSeconds) event.timestamp).length

def FailsForMany : Prop :=
  ∃ sourceIp, event.eventType = "login_failure" ∧ event.sourceIp = some sourceIp ∧ sourceIp ≠ "" ∧
    env.settings.passwordSprayUniqueUsers ≤ (usersFailing events sourceIp
      (event.timestamp - seconds env.settings.passwordSprayWindowSeconds) event.timestamp).length

def ChangesPrivilegeAfterFailure : Prop :=
  event.eventType = "privilege_change" ∧
    failuresOf events event.username event.sourceIp
      (event.timestamp - seconds env.settings.privilegeChangeLookbackSeconds) event.timestamp ≠ []

def DownloadsMuch : Prop :=
  (event.eventType = "file_download" ∨ event.eventType = "resource_access") ∧
    ∃ bytes, event.bytesReceived = some bytes ∧ env.settings.largeDownloadThresholdBytes ≤ bytes

def SucceedsAfterFailures : Prop :=
  event.eventType = "login_success" ∧
    env.settings.loginAfterFailuresThreshold ≤ (failuresOf events event.username event.sourceIp
      (event.timestamp - seconds env.settings.loginAfterFailuresWindowSeconds)
      event.timestamp).length

def ScoresAnomalous : Prop :=
  ∃ anomaly, env.scoreEvent events event = some (some anomaly) ∧
    anomaly.score.toRat < anomaly.threshold.toRat

def ReportsFinding : Prop :=
  event.eventType ∈ findingEventTypes

end Signatures

abbrev Signature : Type 1 := String × (Env → List Event → Event → Prop)

def signatures : List Signature :=
  [(bruteForceId, FailsOften), (passwordSprayId, FailsForMany),
    (suspiciousPrivilegeChangeId, ChangesPrivilegeAfterFailure),
    (largeDownloadId, fun env _ event => DownloadsMuch env event),
    (loginAfterFailuresId, SucceedsAfterFailures), (mlAnomalyId, ScoresAnomalous),
    (cloudFindingId, fun _ _ event => ReportsFinding event)]

open scoped Classical in
noncomputable def expectedRules (env : Env) (events : List Event) (event : Event) : List String :=
  (signatures.filter fun signature => signature.2 env events event).map Prod.fst

section Rules

variable {env : Env} {db : Database} {event : Event}

theorem recentFailures_perm (env : Env) (db : Database) (sourceIp : String) (since til : Timestamp) :
    (db.recentLoginFailuresBySourceIp env sourceIp since til).Perm
      (failuresFrom db.events sourceIp since til) :=
  select_perm _ _ _ _

theorem identityFailures_perm (env : Env) (db : Database) (username sourceIp : Option String)
    (since til : Timestamp) :
    (db.recentLoginFailuresForIdentity env username sourceIp since til).Perm
      (failuresOf db.events username sourceIp since til) :=
  select_perm _ _ _ _

def Decides (env : Env) (db : Database) (event : Event) (rule : Rule) (signature : Signature) :
    Prop :=
  ∀ answer, rule env db event = some answer →
    (answer.isSome = true ↔ signature.2 env db.events event) ∧
      ∀ result ∈ answer, result.ruleId = signature.1

theorem decides_bruteForce : Decides env db event bruteForce (bruteForceId, FailsOften) := by
  intro answer h
  refine ⟨?_, fun result hresult => ?_⟩
  · unfold bruteForce at h
    split at h
    · rename_i hip
      cases h
      simp [FailsOften, hip]
    · rename_i sourceIp hip
      split at h
      · rename_i hguard
        cases h
        simp only [Option.isSome_none, Bool.false_eq_true, false_iff]
        rintro ⟨other, htype, hother, hempty, _⟩
        rw [hip] at hother
        cases hother
        exact hguard.elim (fun hne => hne htype) hempty
      · rename_i hguard
        obtain ⟨htype, hempty⟩ := not_or.mp hguard
        have hlength := (recentFailures_perm env db sourceIp
          (event.timestamp - seconds env.settings.bruteForceWindowSeconds) event.timestamp).length_eq
        simp only [hlength] at h
        split at h
        · rename_i hfew
          cases h
          simp only [Option.isSome_none, Bool.false_eq_true, false_iff]
          rintro ⟨other, _, hother, _, hmany⟩
          rw [hip] at hother
          cases hother
          exact absurd hmany (not_le.mpr hfew)
        · rename_i hmany
          obtain ⟨first, _, h⟩ := Option.bind_eq_some_iff.mp h
          obtain ⟨last, _, h⟩ := Option.bind_eq_some_iff.mp h
          cases h
          simp only [Option.isSome_some, true_iff]
          exact ⟨sourceIp, not_not.mp htype, hip, hempty, not_lt.mp hmany⟩
  · rw [Option.mem_def.mp hresult] at h
    obtain ⟨_, _, _, _, _, _, hdetects⟩ := detects_bruteForce h
    exact hdetects.ruleId

theorem decides_passwordSpray :
    Decides env db event passwordSpray (passwordSprayId, FailsForMany) := by
  intro answer h
  refine ⟨?_, fun result hresult => ?_⟩
  · unfold passwordSpray at h
    split at h
    · rename_i hip
      cases h
      simp [FailsForMany, hip]
    · rename_i sourceIp hip
      split at h
      · rename_i hguard
        cases h
        simp only [Option.isSome_none, Bool.false_eq_true, false_iff]
        rintro ⟨other, htype, hother, hempty, _⟩
        rw [hip] at hother
        cases hother
        exact hguard.elim (fun hne => hne htype) hempty
      · rename_i hguard
        obtain ⟨htype, hempty⟩ := not_or.mp hguard
        simp only at h
        split at h
        · rename_i hfew
          cases h
          simp only [Option.isSome_none, Bool.false_eq_true, false_iff]
          rintro ⟨other, _, hother, _, hmany⟩
          rw [hip] at hother
          cases hother
          exact absurd hmany (not_le.mpr hfew)
        · rename_i hmany
          cases h
          simp only [Option.isSome_some, true_iff]
          exact ⟨sourceIp, not_not.mp htype, hip, hempty, not_lt.mp hmany⟩
  · rw [Option.mem_def.mp hresult] at h
    obtain ⟨_, _, _, _, hdetects⟩ := detects_passwordSpray h
    exact hdetects.ruleId

theorem decides_suspiciousPrivilegeChange : Decides env db event suspiciousPrivilegeChange
    (suspiciousPrivilegeChangeId, ChangesPrivilegeAfterFailure) := by
  intro answer h
  refine ⟨?_, fun result hresult => ?_⟩
  · unfold suspiciousPrivilegeChange at h
    split at h
    · rename_i htype
      cases h
      simp [ChangesPrivilegeAfterFailure, htype]
    · rename_i htype
      have hperm := identityFailures_perm env db event.username event.sourceIp
        (event.timestamp - seconds env.settings.privilegeChangeLookbackSeconds) event.timestamp
      simp only at h
      split at h
      · rename_i hnone
        cases h
        rw [List.head?_eq_none_iff.mp hnone] at hperm
        simp only [Option.isSome_none, Bool.false_eq_true, false_iff]
        exact fun hchanges => hchanges.2 hperm.nil_eq.symm
      · rename_i first hfirst
        cases h
        simp only [Option.isSome_some, true_iff]
        refine ⟨not_not.mp htype, ?_⟩
        exact List.ne_nil_of_mem (hperm.mem_iff.mp (List.mem_of_mem_head? hfirst))
  · rw [Option.mem_def.mp hresult] at h
    obtain ⟨_, hdetects⟩ := detects_suspiciousPrivilegeChange h
    exact hdetects.ruleId

theorem decides_largeDownload : Decides env db event largeDownload
    (largeDownloadId, fun env _ event => DownloadsMuch env event) := by
  intro answer h
  refine ⟨?_, fun result hresult => ?_⟩
  · unfold largeDownload at h
    split at h
    · rename_i htype
      cases h
      simp [DownloadsMuch, htype]
    · rename_i htype
      have hkind : event.eventType = "file_download" ∨ event.eventType = "resource_access" := by
        tauto
      split at h
      · rename_i hbytes
        cases h
        simp [DownloadsMuch, hbytes]
      · rename_i bytes hbytes
        split at h
        · rename_i hfew
          cases h
          simp only [Option.isSome_none, Bool.false_eq_true, false_iff]
          rintro ⟨_, other, hother, hmuch⟩
          rw [hbytes] at hother
          cases hother
          exact absurd hmuch (not_le.mpr hfew)
        · rename_i hmuch
          cases h
          simp only [Option.isSome_some, true_iff]
          exact ⟨hkind, bytes, hbytes, not_lt.mp hmuch⟩
  · rw [Option.mem_def.mp hresult] at h
    exact (detects_largeDownload h).ruleId

theorem decides_loginAfterFailures : Decides env db event loginAfterFailures
    (loginAfterFailuresId, SucceedsAfterFailures) := by
  intro answer h
  refine ⟨?_, fun result hresult => ?_⟩
  · unfold loginAfterFailures at h
    split at h
    · rename_i htype
      cases h
      simp [SucceedsAfterFailures, htype]
    · rename_i htype
      have hlength := (identityFailures_perm env db event.username event.sourceIp
        (event.timestamp - seconds env.settings.loginAfterFailuresWindowSeconds)
        event.timestamp).length_eq
      simp only [hlength] at h
      split at h
      · rename_i hfew
        cases h
        simp only [Option.isSome_none, Bool.false_eq_true, false_iff]
        exact fun hsucceeds => absurd hsucceeds.2 (not_le.mpr hfew)
      · rename_i hmany
        obtain ⟨first, _, h⟩ := Option.bind_eq_some_iff.mp h
        cases h
        simp only [Option.isSome_some, true_iff]
        exact ⟨not_not.mp htype, not_lt.mp hmany⟩
  · rw [Option.mem_def.mp hresult] at h
    obtain ⟨_, hdetects⟩ := detects_loginAfterFailures h
    exact hdetects.ruleId

theorem decides_mlAnomaly : Decides env db event mlAnomaly (mlAnomalyId, ScoresAnomalous) := by
  intro answer h
  refine ⟨?_, fun result hresult => ?_⟩
  · obtain ⟨scored, hscored, h⟩ := Option.bind_eq_some_iff.mp h
    cases scored with
    | none =>
        cases h
        simp [ScoresAnomalous, hscored]
    | some anomaly =>
        simp only at h
        split at h
        · rename_i hnormal
          cases h
          simp [ScoresAnomalous, hscored, hnormal]
        · rename_i hanomalous
          cases h
          simp only [Option.isSome_some, true_iff]
          exact ⟨anomaly, hscored, not_le.mp hanomalous⟩
  · rw [Option.mem_def.mp hresult] at h
    obtain ⟨_, hdetects⟩ := detects_mlAnomaly h
    exact hdetects.ruleId

theorem decides_cloudFinding : Decides env db event cloudFinding
    (cloudFindingId, fun _ _ event => ReportsFinding event) := by
  intro answer h
  refine ⟨?_, fun result hresult => ?_⟩
  · unfold cloudFinding at h
    split at h
    · rename_i htype
      cases h
      simp [ReportsFinding, htype]
    · rename_i htype
      cases h
      simp only [Option.isSome_some, true_iff]
      exact not_not.mp htype
  · rw [Option.mem_def.mp hresult] at h
    obtain ⟨_, _, hdetects⟩ := detects_cloudFinding h
    exact hdetects.ruleId

theorem decides_registry : List.Forall₂ (Decides env db event) ruleRegistry signatures :=
  .cons decides_bruteForce <| .cons decides_passwordSpray <|
    .cons decides_suspiciousPrivilegeChange <| .cons decides_largeDownload <|
    .cons decides_loginAfterFailures <| .cons decides_mlAnomaly <|
    .cons decides_cloudFinding .nil

open scoped Classical in
theorem ruleIds_of_mapM {rules : List Rule} {expected : List Signature}
    (h : List.Forall₂ (Decides env db event) rules expected)
    {answers : List (Option DetectionResult)}
    (hanswers : (rules.mapM fun rule => rule env db event) = some answers) :
    answers.reduceOption.map (·.ruleId) =
      (expected.filter fun signature => signature.2 env db.events event).map Prod.fst := by
  induction h generalizing answers with
  | nil =>
      cases hanswers
      rfl
  | @cons rule signature rules expected hrule _ ih =>
      rw [List.mapM_cons] at hanswers
      obtain ⟨answer, hanswer, htail⟩ := Option.bind_eq_some_iff.mp hanswers
      obtain ⟨rest, hrest, heq⟩ := Option.bind_eq_some_iff.mp htail
      cases heq
      obtain ⟨hiff, hid⟩ := hrule answer hanswer
      cases answer with
      | none =>
          have hno : ¬ signature.2 env db.events event := fun hyes => by
            cases hiff.mpr hyes
          rw [List.reduceOption_cons_of_none, ih hrest, List.filter_cons_of_neg (by simpa using hno)]
      | some result =>
          have hyes : signature.2 env db.events event := hiff.mp rfl
          rw [List.reduceOption_cons_of_some, List.map_cons, ih hrest,
            List.filter_cons_of_pos (by simpa using hyes), List.map_cons, hid result rfl]

theorem ruleIds_of_evaluateEvent {results : List DetectionResult}
    (h : evaluateEvent env db event = some results) :
    results.map (·.ruleId) = expectedRules env db.events event := by
  obtain ⟨answers, hanswers, rfl⟩ := Option.map_eq_some_iff.mp h
  exact ruleIds_of_mapM decides_registry hanswers

end Rules

section LastSeen

variable {env : Env} {db : Database} {event : Event} {result : DetectionResult}

theorem before_last {α : Type*} {before : α → α → Prop} {xs : List α} (h : xs.Pairwise before)
    {last x : α} (hlast : xs.getLast? = some last) (hx : x ∈ xs) : x = last ∨ before x last := by
  obtain ⟨firsts, rfl⟩ := List.getLast?_eq_some_iff.mp hlast
  rcases List.mem_append.mp hx with hfirsts | hlast
  · exact Or.inr ((List.pairwise_append.mp h).2.2 x hfirsts last (List.mem_singleton_self last))
  · exact Or.inl (List.mem_singleton.mp hlast)

theorem lastSeen_bruteForce (hmem : event ∈ db.events)
    (h : bruteForce env db event = some (some result)) : result.lastSeen = event.timestamp := by
  unfold bruteForce at h
  split at h
  · cases h
  · rename_i sourceIp hip
    split at h
    · cases h
    · rename_i hguard
      have htype : event.eventType = "login_failure" := not_not.mp (not_or.mp hguard).1
      simp only at h
      split at h
      · cases h
      · obtain ⟨first, _, h⟩ := Option.bind_eq_some_iff.mp h
        obtain ⟨last, hlast, h⟩ := Option.bind_eq_some_iff.mp h
        cases h
        have hsorted := List.pairwise_insertionSort
          (fun a b : Event => a.timestamp ≤ b.timestamp)
          ((env.scan.rows db.events).filter fun other =>
            isLoginFailure (event.timestamp - seconds env.settings.bruteForceWindowSeconds)
              event.timestamp other && other.sourceIp = some sourceIp)
        have hin := mem_select.mp (List.mem_of_getLast? hlast)
        simp only [isLoginFailure, Bool.and_eq_true, decide_eq_true_eq] at hin
        obtain ⟨_, ⟨_, hfrom, hto⟩, _⟩ := hin
        have hself : event ∈ db.recentLoginFailuresBySourceIp env sourceIp
            (event.timestamp - seconds env.settings.bruteForceWindowSeconds) event.timestamp :=
          mem_select.mpr ⟨hmem, by simp [isLoginFailure, htype, hip, hfrom.trans hto]⟩
        rcases before_last hsorted hlast hself with heq | hle
        · exact (congrArg (fun event : Event => event.timestamp) heq).symm
        · exact le_antisymm hto hle

theorem lastSeen_of_rule {rule : Rule} (hrule : rule ∈ ruleRegistry) (hmem : event ∈ db.events)
    (h : rule env db event = some (some result)) : result.lastSeen = event.timestamp := by
  simp only [ruleRegistry, List.mem_cons, List.not_mem_nil, or_false] at hrule
  rcases hrule with rfl | rfl | rfl | rfl | rfl | rfl | rfl
  · exact lastSeen_bruteForce hmem h
  · obtain ⟨_, _, _, _, hdetects⟩ := detects_passwordSpray h
    exact hdetects.lastSeen
  · obtain ⟨_, hdetects⟩ := detects_suspiciousPrivilegeChange h
    exact hdetects.lastSeen
  · exact (detects_largeDownload h).lastSeen
  · obtain ⟨_, hdetects⟩ := detects_loginAfterFailures h
    exact hdetects.lastSeen
  · obtain ⟨_, hdetects⟩ := detects_mlAnomaly h
    exact hdetects.lastSeen
  · obtain ⟨_, _, hdetects⟩ := detects_cloudFinding h
    exact hdetects.lastSeen

theorem lastSeen_of_evaluateEvent {results : List DetectionResult} (hmem : event ∈ db.events)
    (h : evaluateEvent env db event = some results) (hresult : result ∈ results) :
    result.lastSeen = event.timestamp := by
  obtain ⟨answers, hanswers, rfl⟩ := Option.map_eq_some_iff.mp h
  obtain ⟨rule, hrule, hf⟩ := Option.mem_of_mapM hanswers (List.reduceOption_mem_iff.mp hresult)
  exact lastSeen_of_rule hrule hmem hf

end LastSeen

section Runs

variable {env : Env} {db db' : Database} {alert : Alert}

def signal (alert : Alert) : String × Option String × Option String × Timestamp :=
  (alert.ruleId, alert.username, alert.sourceIp, alert.lastSeen)

noncomputable def expectedSignals (env : Env) (events : List Event) (event : Event) :
    List (String × Option String × Option String × Timestamp) :=
  (expectedRules env events event).map fun ruleId =>
    (ruleId, event.username, event.sourceIp, event.timestamp)

theorem signals_buildAlerts {event : Event} {results : List DetectionResult}
    (h : ∀ result ∈ results, Reports event result ∧ result.lastSeen = event.timestamp) (id : Uuid) :
    (buildAlerts env event id results).map signal = (results.map (·.ruleId)).map fun ruleId =>
      (ruleId, event.username, event.sourceIp, event.timestamp) := by
  induction results generalizing id with
  | nil => rfl
  | cons result results ih =>
      obtain ⟨hreports, hlast⟩ := h result List.mem_cons_self
      have hrest := ih (fun other hother => h other (List.mem_cons_of_mem _ hother)) (id + 1)
      have hfirst : signal (buildAlert event result id (env.clock id)) =
          (result.ruleId, event.username, event.sourceIp, event.timestamp) := by
        rw [← hreports.username, ← hreports.sourceIp, ← hlast]
        rfl
      rw [buildAlerts, List.map_cons, hfirst, hrest]
      rfl

theorem createEvent_stores {event : Event} (h : db.createEvent event = some db') :
    event ∈ db'.events := by
  unfold createEvent at h
  split at h
  · cases h
  · cases h
    exact List.mem_append_right _ (List.mem_singleton_self event)

theorem signals_of_runDetection {payload : EventCreate} {alerts : List Alert}
    (h : runDetection env db payload = some (db', alerts)) :
    alerts.map signal = expectedSignals env db'.events (normalizeEvent env db.nextId payload) := by
  obtain ⟨db1, hcreated, h⟩ := Option.bind_eq_some_iff.mp h
  obtain ⟨results, hresults, h⟩ := Option.bind_eq_some_iff.mp h
  cases h
  have hmem := createEvent_stores hcreated
  rw [signals_buildAlerts, ruleIds_of_evaluateEvent hresults]
  · rfl
  · intro result hresult
    exact ⟨reports_of_evaluateEvent hresults hresult, lastSeen_of_evaluateEvent hmem hresults hresult⟩

def alertsOf (db : Database) (event : Event) : List Alert :=
  db.alerts.filter fun alert => alert.eventId = event.id

def Exact (env : Env) (db : Database) : Prop :=
  ∀ i (event : Event), db.events[i]? = some event →
    (alertsOf db event).map signal = expectedSignals env (db.events.take (i + 1)) event

theorem exact_of_same (h : Exact env db) (hevents : db'.events = db.events)
    (halerts : db'.alerts = db.alerts) : Exact env db' := by
  intro i event hi
  rw [alertsOf, halerts, hevents]
  exact h i event (hevents ▸ hi)

theorem exact_detected {payload : EventCreate} {alerts : List Alert} (hc : Consistent db [])
    (h : Exact env db) (hd : runDetection env db payload = some (db', alerts)) : Exact env db' := by
  have hdetected := runDetection_cases hd
  intro i event hi
  rw [hdetected.events] at hi
  rw [alertsOf, hdetected.stored, List.filter_append, List.map_append]
  rcases Nat.lt_or_ge i db.events.length with hlt | hge
  · rw [List.getElem?_append_left hlt] at hi
    have hold : alerts.filter (fun alert => alert.eventId = event.id) = [] := by
      rw [List.filter_eq_nil_iff]
      intro alert halert
      have hid : event.id < db.nextId := hc.events_lt event (List.mem_of_getElem? hi)
      rw [(hdetected.raised alert halert).eventId, decide_eq_true_eq]
      exact hid.ne'
    rw [hold, List.map_nil, List.append_nil, hdetected.events,
      List.take_append_of_le_length (Nat.succ_le_of_lt hlt)]
    exact h i event hi
  · rw [List.getElem?_append_right hge, List.getElem?_singleton] at hi
    split at hi
    · rename_i hzero
      cases hi
      have hlength : db'.events.length ≤ i + 1 := by
        rw [hdetected.events, List.length_append, List.length_singleton]
        omega
      have hnone : db.alerts.filter
          (fun alert => alert.eventId = (normalizeEvent env db.nextId payload).id) = [] := by
        rw [List.filter_eq_nil_iff]
        intro alert halert
        obtain ⟨stored, hstored, hraised⟩ := hc.raised alert halert
        have hid : stored.id < db.nextId := hc.events_lt stored hstored
        rw [hraised.eventId, decide_eq_true_eq]
        exact hid.ne
      have hall : alerts.filter
          (fun alert => alert.eventId = (normalizeEvent env db.nextId payload).id) = alerts := by
        rw [List.filter_eq_self]
        intro alert halert
        exact decide_eq_true (hdetected.raised alert halert).eventId
      rw [hnone, hall, List.map_nil, List.nil_append, List.take_of_length_le hlength]
      exact signals_of_runDetection hd
    · cases hi

theorem exact_step {w w' : Work} {action : Action} (hc : Consistent w.1 w.2)
    (h : Exact env w.1) (hs : step env w action = some w') : Exact env w'.1 := by
  obtain ⟨db, pending⟩ := w
  cases action with
  | detect payload =>
      cases pending with
      | nil => exact exact_detected hc h hs
      | cons alert pending => cases hs
  | correlate =>
      cases pending with
      | nil => cases hs
      | cons alert pending =>
          obtain ⟨db', hdb', rfl⟩ := Option.map_eq_some_iff.mp hs
          have hframe := correlateAlert_frame hdb'
          exact exact_of_same h hframe.1 hframe.2
  | createManualIncident payload =>
      cases pending with
      | nil =>
          cases hs
          exact exact_of_same h rfl rfl
      | cons alert pending => cases hs

theorem exact_run (h : Run (handle env) anyStep Database.empty db) :
    Consistent db [] ∧ Exact env db := by
  have hmeets : Run (handle env) (correlationsMeet env fun _ _ => True) Database.empty db :=
    h.mono fun _ _ _ _ _ => trivial
  refine (run_of_requests hmeets).invariant
    (P := fun w => Consistent w.1 w.2 ∧ Exact env w.1) ?_ ⟨consistent_empty, ?_⟩
  · intro w action w' hw hok hs
    exact ⟨((preserved_nothing env).next ⟨hw.1, trivial⟩ hok hs).1, exact_step hw.1 hw.2 hs⟩
  · intro i event hi
    cases hi

end Runs

theorem alerts_of_each_event (env : Env) (db : Database)
    (h : Run (handle env) anyStep Database.empty db) :
    (∀ alert ∈ db.alerts, ∃ event ∈ db.events, alert ∈ alertsOf db event) ∧
      ∀ i (event : Event), db.events[i]? = some event →
        (alertsOf db event).map signal =
          expectedSignals env (db.events.take (i + 1)) event := by
  obtain ⟨hc, hexact⟩ := exact_run h
  refine ⟨fun alert halert => ?_, hexact⟩
  obtain ⟨event, hevent, hraised⟩ := hc.raised alert halert
  exact ⟨event, hevent, List.mem_filter.mpr ⟨halert, decide_eq_true hraised.eventId⟩⟩

theorem attack_alerts : ∃ db, db.alerts.map (·.ruleId) = [bruteForceId, loginAfterFailuresId] ∧
    (∀ alert ∈ db.alerts, ∃ event ∈ db.events, alert ∈ alertsOf db event) ∧
      ∀ i (event : Event), db.events[i]? = some event →
        (alertsOf db event).map signal =
          expectedSignals plainEnv (db.events.take (i + 1)) event := by
  have hany : (execAll (handle plainEnv) Database.empty
      [.createEventsBulk (attack tenIds "success" 0 100 (some "victim") (some "198.51.100.60"))]).any
        (fun db => decide (db.alerts.map (·.ruleId) = [bruteForceId, loginAfterFailuresId])) =
          true := by
    decide
  obtain ⟨db, hrun, hdb⟩ := run_of_execAll_any hany
  exact ⟨db, of_decide_eq_true hdb, alerts_of_each_event plainEnv db hrun⟩

end Correlation

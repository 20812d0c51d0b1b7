import AiSoc.Correlation.Attacks

namespace Correlation

open Permissions (Uuid Timestamp)
open PyStr Database Query Transition

section Patterns

variable {env : Env} {db db' : Database} {alert a b : Alert} {pending : List Alert}

def attemptRules : List String :=
  [bruteForceId, passwordSprayId]

def Completes (a b : Alert) : Prop :=
  (a.ruleId ∈ attemptRules ∧ b.ruleId = loginAfterFailuresId) ∨
    (a.ruleId = loginAfterFailuresId ∧ b.ruleId ∈ attemptRules)

def Reaches (env : Env) (a b : Alert) : Prop :=
  lookback env a ≤ b.lastSeen ∧ b.lastSeen ≤ a.lastSeen ∧
    sameIdentity a.username a.sourceIp b.username b.sourceIp = true

def LinkedTogether (db : Database) (a b : Alert) : Prop :=
  ∃ row ∈ db.incidents, (row.id, a.id) ∈ db.links ∧ (row.id, b.id) ∈ db.links

theorem mem_allowedRules : loginAfterFailuresId ∈ allowedRules ∧
    ∀ ruleId ∈ attemptRules, ruleId ∈ allowedRules := by
  simp [allowedRules, attemptRules]

theorem Completes.allowed (h : Completes a b) : a.ruleId ∈ allowedRules ∧ b.ruleId ∈ allowedRules := by
  rcases h with ⟨ha, hb⟩ | ⟨ha, hb⟩
  · exact ⟨mem_allowedRules.2 _ ha, hb ▸ mem_allowedRules.1⟩
  · exact ⟨ha ▸ mem_allowedRules.1, mem_allowedRules.2 _ hb⟩

theorem mem_relatedWith (hb : b ∈ db.alerts) (hreaches : Reaches env a b) :
    b ∈ relatedWith env db a :=
  mem_relatedWith_of_related
    (mem_select.mpr ⟨hb, by simp [hreaches.1, hreaches.2.1, hreaches.2.2]⟩)

theorem candidates_of_pattern {alerts : List Alert} (ha : a ∈ alerts) (hb : b ∈ alerts)
    (h : Completes a b) : credentialCompromiseCandidates alerts =
      alerts.filter fun alert => alert.ruleId ∈ allowedRules := by
  have hmem : ∀ alert ∈ alerts, alert.ruleId ∈ alerts.map (·.ruleId) := fun alert halert =>
    List.mem_map_of_mem halert
  have hpattern : (bruteForceId ∈ alerts.map (·.ruleId) ∨
      passwordSprayId ∈ alerts.map (·.ruleId)) ∧
      loginAfterFailuresId ∈ alerts.map (·.ruleId) := by
    simp only [Completes, attemptRules, List.mem_cons, List.not_mem_nil, or_false] at h
    rcases h with ⟨hattempt | hattempt, hsuccess⟩ | ⟨hsuccess, hattempt | hattempt⟩
    · exact ⟨Or.inl (hattempt ▸ hmem a ha), hsuccess ▸ hmem b hb⟩
    · exact ⟨Or.inr (hattempt ▸ hmem a ha), hsuccess ▸ hmem b hb⟩
    · exact ⟨Or.inl (hattempt ▸ hmem b hb), hsuccess ▸ hmem a ha⟩
    · exact ⟨Or.inr (hattempt ▸ hmem b hb), hsuccess ▸ hmem a ha⟩
  unfold credentialCompromiseCandidates
  simp only
  rw [if_pos hpattern]

theorem mem_candidates (hn : (db.alerts.map (·.id)).Nodup) (ha : a ∈ db.alerts)
    (hb : b ∈ db.alerts) (hreaches : Reaches env a b) (h : Completes a b) :
    a ∈ candidateAlerts env db a ∧ b ∈ candidateAlerts env db a := by
  have hself : a ∈ relatedWith env db a := self_mem_relatedWith hn ha
  have hother := mem_relatedWith hb hreaches
  rw [candidateAlerts, candidates_of_pattern hself hother h]
  exact ⟨List.mem_filter.mpr ⟨hself, decide_eq_true h.allowed.1⟩,
    List.mem_filter.mpr ⟨hother, decide_eq_true h.allowed.2⟩⟩

theorem pattern_of_candidates {alerts : List Alert}
    (h : credentialCompromiseCandidates alerts ≠ []) :
    ∃ a ∈ credentialCompromiseCandidates alerts, ∃ b ∈ credentialCompromiseCandidates alerts,
      a.ruleId ∈ attemptRules ∧ b.ruleId = loginAfterFailuresId := by
  unfold credentialCompromiseCandidates at h ⊢
  simp only at h ⊢
  split at h
  · rename_i hpattern
    rw [if_pos hpattern]
    obtain ⟨hattempts, hsuccess⟩ := hpattern
    obtain ⟨b, hb, hbRule⟩ := List.mem_map.mp hsuccess
    have hattempt : ∃ a ∈ alerts, a.ruleId ∈ attemptRules := by
      rcases hattempts with hrule | hrule
      · obtain ⟨a, ha, haRule⟩ := List.mem_map.mp hrule
        exact ⟨a, ha, haRule ▸ List.mem_cons_self⟩
      · obtain ⟨a, ha, haRule⟩ := List.mem_map.mp hrule
        exact ⟨a, ha, haRule ▸ List.mem_cons_of_mem _ List.mem_cons_self⟩
    obtain ⟨a, ha, haRule⟩ := hattempt
    refine ⟨a, List.mem_filter.mpr ⟨ha, decide_eq_true (mem_allowedRules.2 _ haRule)⟩, b,
      List.mem_filter.mpr ⟨hb, decide_eq_true ?_⟩, haRule, hbRule⟩
    exact hbRule ▸ mem_allowedRules.1
  · exact absurd rfl h

end Patterns

section Preservation

variable {env : Env} {db db' : Database} {alert : Alert} {pending : List Alert}

def Linked (env : Env) (db : Database) (pending : List Alert) : Prop :=
  ∀ a ∈ db.alerts, ∀ b ∈ db.alerts, a ∉ pending → b.id < a.id → Reaches env a b →
    Completes a b → LinkedTogether db a b

def Founded (db : Database) : Prop :=
  ∀ p ∈ db.links, ∀ alert ∈ db.alerts, alert.id = p.2 → alert.ruleId ∈ allowedRules →
    ∃ a ∈ db.alerts, ∃ b ∈ db.alerts, (p.1, a.id) ∈ db.links ∧ (p.1, b.id) ∈ db.links ∧
      a.ruleId ∈ attemptRules ∧ b.ruleId = loginAfterFailuresId

theorem linkedTogether_merged {row row' : Incident} {alertIds : List Uuid} {a b : Alert}
    (hm : Merged db db' row row' alertIds) (h : LinkedTogether db a b) : LinkedTogether db' a b := by
  obtain ⟨incident, hincident, ha, hb⟩ := h
  have hlinks : ∀ p ∈ db.links, p ∈ db'.links := fun p hp => (hm.mem_links p).mpr (Or.inl hp)
  by_cases hid : incident.id = row.id
  · refine ⟨row', hm.mem_row, ?_, ?_⟩
    · rw [hm.id, ← hid]
      exact hlinks _ ha
    · rw [hm.id, ← hid]
      exact hlinks _ hb
  · exact ⟨incident, (hm.mem incident).mpr (Or.inr ⟨hincident, hid⟩), hlinks _ ha, hlinks _ hb⟩

theorem linked_merged {row row' : Incident} {alertIds : List Uuid}
    (hm : Merged db db' row row' alertIds) (h : Linked env db (alert :: pending))
    (hnew : ∀ b ∈ db.alerts, Reaches env alert b → Completes alert b →
      LinkedTogether db' alert b) : Linked env db' pending := by
  intro a ha b hb hdone hlt hreaches hcompletes
  rw [hm.alerts] at ha hb
  by_cases heq : a = alert
  · subst heq
    exact hnew b hb hreaches hcompletes
  · have hnot : a ∉ alert :: pending := by
      rw [List.mem_cons]
      exact fun hin => hin.elim heq hdone
    exact linkedTogether_merged hm (h a ha b hb hnot hlt hreaches hcompletes)

theorem founded_merged {row row' : Incident} {alertIds : List Uuid}
    (hm : Merged db db' row row' alertIds) (h : Founded db)
    (hnew : ∀ a ∈ db.alerts, a.id ∈ alertIds → a.ruleId ∈ allowedRules →
      ∃ b ∈ db.alerts, ∃ c ∈ db.alerts, b.id ∈ alertIds ∧ c.id ∈ alertIds ∧
        b.ruleId ∈ attemptRules ∧ c.ruleId = loginAfterFailuresId) : Founded db' := by
  intro p hp a ha hid hrule
  rw [hm.alerts] at ha ⊢
  simp only [hm.mem_links]
  rcases (hm.mem_links p).mp hp with hold | ⟨hrow, hin⟩
  · obtain ⟨b, hb, c, hc, hlinkB, hlinkC, hrules⟩ := h p hold a ha hid hrule
    exact ⟨b, hb, c, hc, Or.inl hlinkB, Or.inl hlinkC, hrules⟩
  · obtain ⟨b, hb, c, hc, hidB, hidC, hrules⟩ := hnew a ha (hid ▸ hin) hrule
    exact ⟨b, hb, c, hc, Or.inr ⟨hrow, hidB⟩, Or.inr ⟨hrow, hidC⟩, hrules⟩

theorem not_allowed_of_finding (hrule : alert.ruleId = cloudFindingId) :
    alert.ruleId ∉ allowedRules :=
  hrule ▸ cloudFinding_not_allowed

theorem compromises_correlate (hc : Consistent db (alert :: pending))
    (hP : Linked env db (alert :: pending) ∧ Founded db) (h : Correlated env db alert db') :
    Linked env db' pending ∧ Founded db' := by
  have halert := hc.pending_stored alert List.mem_cons_self
  cases h with
  | ignored _ hnone same =>
      subst same
      refine ⟨?_, hP.2⟩
      intro a ha b hb hdone hlt hreaches hcompletes
      by_cases heq : a = alert
      · subst heq
        have hin := (mem_candidates hc.alerts_nodup ha hb hreaches hcompletes).1
        rw [hnone hcompletes.allowed.1] at hin
        cases hin
      · have hnot : a ∉ alert :: pending := by
          rw [List.mem_cons]
          exact fun hin => hin.elim heq hdone
        exact hP.1 a ha b hb hnot hlt hreaches hcompletes
  | credential row row' firstSeen lastSeen rule candidates merged target refresh first last =>
      refine ⟨linked_merged merged hP.1 ?_, founded_merged merged hP.2 ?_⟩
      · intro b hb hreaches hcompletes
        obtain ⟨hself, hother⟩ := mem_candidates hc.alerts_nodup halert hb hreaches hcompletes
        refine ⟨row', merged.mem_row, ?_, ?_⟩
        · exact (merged.mem_links _).mpr (Or.inr ⟨merged.id, List.mem_map_of_mem hself⟩)
        · exact (merged.mem_links _).mpr (Or.inr ⟨merged.id, List.mem_map_of_mem hother⟩)
      · intro _ _ _ _
        obtain ⟨b, hb, c, hc', hrules⟩ := pattern_of_candidates candidates
        exact ⟨b, candidate_stored halert hb, c, candidate_stored halert hc',
          List.mem_map_of_mem hb, List.mem_map_of_mem hc', hrules⟩
  | finding event row row' scores topScore lastSeen rule found merged target refresh scored top
      last =>
      have hnot := not_allowed_of_finding rule
      refine ⟨linked_merged merged hP.1 ?_, founded_merged merged hP.2 ?_⟩
      · intro b _ _ hcompletes
        exact absurd hcompletes.allowed.1 hnot
      · intro a ha hid hallowed
        have heq : a = alert := eq_of_id hc.alerts_nodup ha halert (List.mem_singleton.mp hid)
        exact absurd (heq ▸ hallowed) hnot

theorem compromises_detect {payload : EventCreate} {alerts : List Alert} (hc : Consistent db [])
    (hP : Linked env db [] ∧ Founded db) (h : Detected env db payload db' alerts) :
    Linked env db' alerts ∧ Founded db' := by
  have hlate : ∀ a ∈ alerts, db.nextId < a.id := by
    intro a ha
    have hid : a.id ∈ alerts.map (·.id) := List.mem_map_of_mem ha
    rw [h.ids, List.mem_range'_1] at hid
    lia
  constructor
  · intro a ha b hb hdone hlt hreaches hcompletes
    rw [h.stored] at ha hb
    have hold : a ∈ db.alerts := (List.mem_append.mp ha).resolve_right hdone
    have hbound := hc.alerts_lt a hold
    have hother : b ∈ db.alerts := by
      rcases List.mem_append.mp hb with hstored | hnew
      · exact hstored
      · have hgt := hlate b hnew
        lia
    obtain ⟨row, hrow, hlinks⟩ := hP.1 a hold b hother List.not_mem_nil hlt hreaches hcompletes
    rw [LinkedTogether, h.incidents, h.links]
    exact ⟨row, hrow, hlinks⟩
  · intro p hp a ha hid hrule
    rw [h.links] at hp ⊢
    rw [h.stored] at ha ⊢
    have hold : a ∈ db.alerts := by
      rcases List.mem_append.mp ha with hstored | hnew
      · exact hstored
      · exact absurd (hid ▸ hp) (unlinked_of_detected hc h hnew p.1)
    obtain ⟨b, hb, c, hc', hrest⟩ := hP.2 p hp a hold hid hrule
    exact ⟨b, List.mem_append_left _ hb, c, List.mem_append_left _ hc', hrest⟩

theorem preserved_compromises (env : Env) : Preserved env (fun _ _ => True)
    fun db pending => Linked env db pending ∧ Founded db where
  detect := compromises_detect
  correlate := fun hc hP _ h => compromises_correlate hc hP h
  manual := by
    intro db payload _ hP
    refine ⟨?_, hP.2⟩
    intro a ha b hb hdone hlt hreaches hcompletes
    obtain ⟨row, hrow, hlinks⟩ := hP.1 a ha b hb hdone hlt hreaches hcompletes
    exact ⟨row, List.mem_append_left _ hrow, hlinks⟩

end Preservation

theorem compromises_run {env : Env} {db : Database}
    (h : Run (handle env) anyStep Database.empty db) : Linked env db [] ∧ Founded db := by
  have hmeets : Run (handle env) (correlationsMeet env fun _ _ => True) Database.empty db :=
    h.mono fun _ _ _ _ _ => trivial
  have hempty : Linked env Database.empty [] ∧ Founded Database.empty := by
    constructor
    · intro a ha
      cases ha
    · intro p hp
      cases hp
  exact ((preserved_compromises env).committed hmeets hempty).2

theorem compromises_linked (env : Env) (db : Database)
    (h : Run (handle env) anyStep Database.empty db) :
    (∀ a ∈ db.alerts, ∀ b ∈ db.alerts, b.id < a.id → Reaches env a b → Completes a b →
        LinkedTogether db a b) ∧
      ∀ row ∈ db.incidents, ∀ alert ∈ db.alerts, (row.id, alert.id) ∈ db.links →
        alert.ruleId ∈ allowedRules →
        ∃ a ∈ db.alerts, ∃ b ∈ db.alerts, (row.id, a.id) ∈ db.links ∧ (row.id, b.id) ∈ db.links ∧
          a.ruleId ∈ attemptRules ∧ b.ruleId = loginAfterFailuresId := by
  obtain ⟨hlinked, hfounded⟩ := compromises_run h
  refine ⟨fun a ha b hb => hlinked a ha b hb List.not_mem_nil, ?_⟩
  intro row _ alert halert hlink hrule
  exact hfounded _ hlink alert halert rfl hrule

theorem attack_is_linked : ∃ db, db.alerts.map (·.ruleId) = [bruteForceId, loginAfterFailuresId] ∧
    ∃ a ∈ db.alerts, ∃ b ∈ db.alerts, b.id < a.id ∧ LinkedTogether db a b := by
  have hany : (execAll (handle plainEnv) Database.empty
      [.createEventsBulk (attack tenIds "success" 0 100 (some "victim") (some "198.51.100.60"))]).any
        (fun db => decide (db.alerts.map (·.ruleId) = [bruteForceId, loginAfterFailuresId] ∧
          ∃ a ∈ db.alerts, ∃ b ∈ db.alerts, b.id < a.id ∧
            (lookback plainEnv a ≤ b.lastSeen ∧ b.lastSeen ≤ a.lastSeen ∧
              sameIdentity a.username a.sourceIp b.username b.sourceIp = true) ∧
            a.ruleId = loginAfterFailuresId ∧ b.ruleId ∈ attemptRules)) = true := by
    decide
  obtain ⟨db, hrun, hdb⟩ := run_of_execAll_any hany
  obtain ⟨hrules, a, ha, b, hb, hlt, hreaches, hcompletes⟩ := of_decide_eq_true hdb
  exact ⟨db, hrules, a, ha, b, hb, hlt,
    (compromises_linked plainEnv db hrun).1 a ha b hb hlt hreaches (Or.inr hcompletes)⟩

section Order

variable {env : Env} {db db' : Database} {alert : Alert} {pending : List Alert}

structure Numbered (db : Database) : Prop where
  events : db.events.Pairwise fun a b => a.id < b.id
  after : ∀ alert ∈ db.alerts, alert.eventId < alert.id
  before : ∀ alert ∈ db.alerts, ∀ event ∈ db.events, alert.eventId < event.id → alert.id < event.id

theorem numbered_of_same (h : Numbered db) (hevents : db'.events = db.events)
    (halerts : db'.alerts = db.alerts) : Numbered db' := by
  refine ⟨?_, ?_, ?_⟩
  · exact hevents ▸ h.events
  · exact halerts ▸ h.after
  · rw [hevents, halerts]
    exact h.before

theorem numbered_detect {payload : EventCreate} {alerts : List Alert} (hc : Consistent db [])
    (hP : Numbered db) (h : Detected env db payload db' alerts) : Numbered db' := by
  refine ⟨?_, ?_, ?_⟩
  · rw [h.events, List.pairwise_append]
    refine ⟨hP.events, List.pairwise_singleton _ _, ?_⟩
    intro event hevent other hother
    rw [List.mem_singleton.mp hother]
    exact hc.events_lt event hevent
  · intro alert halert
    rw [h.stored] at halert
    rcases List.mem_append.mp halert with hold | hnew
    · exact hP.after alert hold
    · have hid : alert.id ∈ alerts.map (·.id) := List.mem_map_of_mem hnew
      rw [h.ids, List.mem_range'_1] at hid
      rw [(h.raised alert hnew).eventId]
      exact hid.1
  · intro alert halert event hevent hlt
    rw [h.stored] at halert
    rw [h.events] at hevent
    rcases List.mem_append.mp hevent with holdEvent | hnewEvent
    · rcases List.mem_append.mp halert with hold | hnew
      · exact hP.before alert hold event holdEvent hlt
      · have hbound := hc.events_lt event holdEvent
        rw [(h.raised alert hnew).eventId] at hlt
        exact absurd (hlt.trans hbound) (lt_irrefl _)
    · rw [List.mem_singleton.mp hnewEvent] at hlt ⊢
      rcases List.mem_append.mp halert with hold | hnew
      · exact hc.alerts_lt alert hold
      · rw [(h.raised alert hnew).eventId] at hlt
        exact absurd hlt (lt_irrefl _)

theorem preserved_numbered (env : Env) :
    Preserved env (fun _ _ => True) fun db _ => Numbered db where
  detect := numbered_detect
  correlate := by
    intro db db' alert pending _ hP _ h
    cases h with
    | ignored _ _ same => exact same ▸ hP
    | credential row row' firstSeen lastSeen rule candidates merged target refresh first last =>
        exact numbered_of_same hP merged.events merged.alerts
    | finding event row row' scores topScore lastSeen rule found merged target refresh scored top
        last =>
        exact numbered_of_same hP merged.events merged.alerts
  manual := fun _ _ hP => numbered_of_same hP rfl rfl

theorem numbered_run (h : Run (handle env) anyStep Database.empty db) : Numbered db := by
  have hmeets : Run (handle env) (correlationsMeet env fun _ _ => True) Database.empty db :=
    h.mono fun _ _ _ _ _ => trivial
  have hempty : Numbered Database.empty := by
    constructor
    · exact List.Pairwise.nil
    · intro alert halert
      cases halert
    · intro alert halert
      cases halert
  exact ((preserved_numbered env).committed hmeets hempty).2

end Order

section Attack

variable {env : Env} {db : Database} {sourceIp : String} {since : Timestamp} {success : Event}

theorem succeeds_of_failures (hordered : InOrder db) {j : Nat}
    (hj : db.events[j]? = some success) (htype : success.eventType = "login_success")
    (hip : success.sourceIp = some sourceIp) {til : Timestamp} (hafter : til < success.timestamp)
    (hwindow : success.timestamp - seconds env.settings.loginAfterFailuresWindowSeconds ≤ since)
    (hmany : env.settings.loginAfterFailuresThreshold ≤
      (failuresFrom db.events sourceIp since til).length) :
    SucceedsAfterFailures env (db.events.take (j + 1)) success := by
  refine ⟨htype, hmany.trans (Int.ofNat_le.mpr ?_)⟩
  obtain ⟨hlt, hget⟩ := List.getElem?_eq_some_iff.mp hj
  have hlate : failuresFrom (db.events.drop (j + 1)) sourceIp since til = [] := by
    rw [failuresFrom, List.filter_eq_nil_iff]
    intro event hevent
    obtain ⟨k, hk, rfl⟩ := List.mem_drop_iff_getElem.mp hevent
    have hle : success.timestamp ≤ db.events[j + 1 + k].timestamp :=
      hget ▸ List.pairwise_iff_getElem.mp hordered j (j + 1 + k) hlt _ (by omega)
    have hnot : ¬ db.events[j + 1 + k].timestamp ≤ til := not_le.mpr (hafter.trans_le hle)
    simp [isLoginFailure, hnot]
  have hstart : failuresFrom db.events sourceIp since til =
      failuresFrom (db.events.take (j + 1)) sourceIp since til := by
    have hsplit := List.filter_append (p := fun event =>
      isLoginFailure since til event && event.sourceIp = some sourceIp)
      (db.events.take (j + 1)) (db.events.drop (j + 1))
    rw [List.take_append_drop] at hsplit
    rw [failuresFrom, hsplit]
    exact (congrArg _ hlate).trans (List.append_nil _)
  rw [hstart]
  refine (List.monotone_filter_right _ ?_).length_le
  intro event hevent
  simp only [isLoginFailure, Bool.and_eq_true, decide_eq_true_eq] at hevent ⊢
  obtain ⟨⟨hfailure, hfrom, hto⟩, heventIp⟩ := hevent
  refine ⟨⟨hfailure, hwindow.trans hfrom, hto.trans hafter.le⟩, ?_⟩
  simp [sameIdentity, hip, heventIp]

end Attack

theorem compromise_opens_incident (env : Env) (db : Database)
    (h : Run (handle env) anyStep Database.empty db) (hordered : InOrder db)
    (hfailures : 0 < env.settings.bruteForceThreshold)
    (hfew : env.settings.loginAfterFailuresThreshold ≤ env.settings.bruteForceThreshold)
    (sourceIp : String) (hempty : sourceIp ≠ "") (since : Timestamp)
    (hmany : env.settings.bruteForceThreshold ≤ (failuresFrom db.events sourceIp since
      (since + seconds env.settings.bruteForceWindowSeconds)).length)
    (success : Event) (hsuccess : success ∈ db.events)
    (htype : success.eventType = "login_success") (hip : success.sourceIp = some sourceIp)
    (hafter : since + seconds env.settings.bruteForceWindowSeconds < success.timestamp)
    (hwindow : success.timestamp - seconds env.settings.loginAfterFailuresWindowSeconds ≤ since)
    (hlookback :
      success.timestamp - seconds env.settings.credentialCompromiseLookbackSeconds ≤ since) :
    ∃ row ∈ db.incidents, row.status = "open" ∧ ∃ a ∈ db.alerts, ∃ b ∈ alertsOf db success,
      (row.id, a.id) ∈ db.links ∧ (row.id, b.id) ∈ db.links ∧
      a.ruleId = bruteForceId ∧ a.sourceIp = some sourceIp ∧ b.ruleId = loginAfterFailuresId := by
  obtain ⟨hc, hexact⟩ := exact_run h
  have hnumbered := numbered_run h
  obtain ⟨i, event, hi, _, hfrom, hto, a, ha, haRule, haIp, haLast⟩ :=
    bruteForce_complete hexact hordered hempty hfailures hmany
  obtain ⟨j, hj⟩ := List.mem_iff_getElem?.mp hsuccess
  have hsucceeds : SucceedsAfterFailures env (db.events.take (j + 1)) success :=
    succeeds_of_failures hordered hj htype hip hafter hwindow (hfew.trans hmany)
  have hexpected : loginAfterFailuresId ∈ expectedRules env (db.events.take (j + 1)) success :=
    mem_expectedRules.mpr ⟨SucceedsAfterFailures, by simp [signatures], hsucceeds⟩
  obtain ⟨b, hb, hbRule, _, hbIp, hbLast⟩ := alert_of_expected hexact hj hexpected
  have hearlier : event.timestamp < success.timestamp := hto.trans_lt hafter
  obtain ⟨hilt, hievent⟩ := List.getElem?_eq_some_iff.mp hi
  obtain ⟨hjlt, hjsuccess⟩ := List.getElem?_eq_some_iff.mp hj
  have hij : i < j := by
    rcases Nat.lt_trichotomy i j with hlt | heq | hgt
    · exact hlt
    · subst heq
      rw [hievent] at hjsuccess
      exact absurd (hjsuccess ▸ hearlier) (lt_irrefl _)
    · have hle := List.pairwise_iff_getElem.mp hordered j i hjlt hilt hgt
      rw [hievent, hjsuccess] at hle
      exact absurd hearlier (not_lt.mpr hle)
  have heventId : event.id < success.id := by
    have hid := List.pairwise_iff_getElem.mp hnumbered.events i j hilt hjlt hij
    rwa [hievent, hjsuccess] at hid
  obtain ⟨haStored, haEvent⟩ := List.mem_filter.mp ha
  obtain ⟨hbStored, hbEvent⟩ := List.mem_filter.mp hb
  have haEventId : a.eventId = event.id := of_decide_eq_true haEvent
  have hbEventId : b.eventId = success.id := of_decide_eq_true hbEvent
  have hids : a.id < b.id := by
    have hbefore := hnumbered.before a haStored success hsuccess (haEventId ▸ heventId)
    have hafterB := hnumbered.after b hbStored
    rw [hbEventId] at hafterB
    exact hbefore.trans hafterB
  have hreaches : Reaches env b a := by
    refine ⟨?_, ?_, ?_⟩
    · rw [lookback, hbLast, haLast]
      exact hlookback.trans hfrom
    · rw [hbLast, haLast]
      exact hearlier.le
    · simp [sameIdentity, hbIp, hip, haIp]
  have hcompletes : Completes b a := Or.inr ⟨hbRule, haRule ▸ List.mem_cons_self⟩
  obtain ⟨row, hrow, hlinkB, hlinkA⟩ := (compromises_run h).1 b hbStored a haStored
    List.not_mem_nil hids hreaches hcompletes
  exact ⟨row, hrow, hc.opened row hrow, a, haStored, b, hb, hlinkA, hlinkB, haRule, haIp, hbRule⟩

theorem attack_opens_incident : ∃ db : Database, ∃ row ∈ db.incidents, row.status = "open" ∧
    ∃ a ∈ db.alerts, (row.id, a.id) ∈ db.links ∧ a.ruleId = bruteForceId := by
  have hany : (execAll (handle plainEnv) Database.empty
      [.createEventsBulk (attack tenIds "success" 0 100 (some "victim") (some "198.51.100.60"))]).any
        (fun db => decide (InOrder db ∧
          10 ≤ (failuresFrom db.events "198.51.100.60" 0 (0 + seconds 60)).length ∧
          ∃ success ∈ db.events, success.eventType = "login_success" ∧
            success.sourceIp = some "198.51.100.60" ∧ success.timestamp = seconds 100)) = true := by
    decide
  obtain ⟨db, hrun, hdb⟩ := run_of_execAll_any hany
  obtain ⟨hordered, hmany, success, hsuccess, htype, hip, htime⟩ := of_decide_eq_true hdb
  have hafter : (0 : Timestamp) + seconds 60 < success.timestamp := htime ▸ by decide
  have hwindow : success.timestamp - seconds 900 ≤ 0 := htime ▸ by decide
  have hlookback : success.timestamp - seconds 1800 ≤ 0 := htime ▸ by decide
  obtain ⟨row, hrow, hopen, a, ha, _, _, hlink, _, hrule, _⟩ :=
    compromise_opens_incident plainEnv db hrun hordered (by decide) (by decide) "198.51.100.60"
      (by decide) 0 (Int.ofNat_le.mpr hmany) success hsuccess htype hip hafter hwindow hlookback
  exact ⟨db, row, hrow, hopen, a, ha, hlink, hrule⟩

end Correlation

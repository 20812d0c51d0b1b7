import AiSoc.Correlation.Summary

namespace Correlation

open Permissions (Uuid Timestamp)
open PyJson Database Query Transition

section Statement

def findingId (env : Env) (event : Event) : String × String :=
  (accountId env event, providerId env event)

def findingOf (env : Env) (db : Database) (alert : Alert) : Option (String × String) :=
  (db.eventById alert.eventId).map (findingId env)

def HoldsFinding (env : Env) (db : Database) (row : Incident) (finding : String × String) : Prop :=
  ∃ a ∈ db.alerts, a.ruleId = cloudFindingId ∧ (row.id, a.id) ∈ db.links ∧
    findingOf env db a = some finding

def FindingsApart (env : Env) (db : Database) : Prop :=
  ∀ row ∈ db.incidents, ∀ finding finding', HoldsFinding env db row finding →
    HoldsFinding env db row finding' → finding = finding'

def LatestUpdate (env : Env) (db : Database) (alert : Alert) (finding : String × String) : Prop :=
  ∀ a ∈ db.alerts, a.ruleId = cloudFindingId → findingOf env db a = some finding →
    a.lastSeen ≤ alert.lastSeen

def JoinsIncident (env : Env) (db : Database) (alert : Alert) : Prop :=
  alert.ruleId = cloudFindingId → ∀ event, db.eventById alert.eventId = some event →
    LatestUpdate env db alert (findingId env event) →
      ∀ row ∈ db.incidents, row.status = "open" → HoldsFinding env db row (findingId env event) →
        findingSince alert ≤ row.lastSeen → ∀ db', correlateAlert env db alert = some db' →
          (row.id, alert.id) ∈ db'.links ∧
            db'.incidents.map (·.id) = db.incidents.map (·.id)

def KeepsFindings (env : Env) (db : Database) (alert : Alert) : Prop :=
  alert.ruleId ∈ allowedRules → candidateAlerts env db alert ≠ [] →
    ∀ row, Selected (credentialMatch env db alert) db row → ¬ isFindingKey row.correlationKey

def DistinctKeys (env : Env) (db : Database) (alert : Alert) : Prop :=
  alert.ruleId = cloudFindingId → ∀ event, db.eventById alert.eventId = some event →
    ∀ row ∈ db.incidents, findingMatch env event alert row = true →
      ∀ a ∈ db.alerts, a.ruleId = cloudFindingId → (row.id, a.id) ∈ db.links →
        ∀ other, db.eventById a.eventId = some other →
          eventFindingKey env other = eventFindingKey env event →
            findingId env other = findingId env event

def OrderedUpdates (env : Env) (db : Database) (alert : Alert) : Prop :=
  alert.ruleId = cloudFindingId → ∀ event, db.eventById alert.eventId = some event →
    ∀ row ∈ db.incidents, row.correlationKey = eventFindingKey env event →
      row.lastSeen ≤ findingUntil alert

structure FindingSafe (env : Env) (db : Database) (alert : Alert) : Prop where
  kept : KeepsFindings env db alert
  distinct : DistinctKeys env db alert
  ordered : OrderedUpdates env db alert

end Statement

section Invariant

structure FindingInv (env : Env) (db : Database) : Prop where
  key : ∀ row ∈ db.incidents, ∀ a ∈ db.alerts, a.ruleId = cloudFindingId →
    (row.id, a.id) ∈ db.links → ∀ event, db.eventById a.eventId = some event →
      row.correlationKey = eventFindingKey env event
  only : ∀ row ∈ db.incidents, isFindingKey row.correlationKey → ∀ a ∈ db.alerts,
    (row.id, a.id) ∈ db.links → a.ruleId = cloudFindingId
  attained : ∀ row ∈ db.incidents, isFindingKey row.correlationKey → ∃ a ∈ db.alerts,
    (row.id, a.id) ∈ db.links ∧ a.lastSeen = row.lastSeen
  far : ∀ r ∈ db.incidents, ∀ s ∈ db.incidents, r.id ≠ s.id → isFindingKey r.correlationKey →
    r.correlationKey = s.correlationKey → ¬ Within (days 90) r.lastSeen s.lastSeen
  apart : FindingsApart env db

variable {env : Env} {db db' : Database} {alert : Alert} {pending : List Alert}
  {row row' : Incident} {alertIds : List Uuid}

theorem finding_times (hc : Consistent db pending) (halert : alert ∈ db.alerts)
    (hrule : alert.ruleId = cloudFindingId) : alert.firstSeen = alert.lastSeen := by
  obtain ⟨event, _, hraised⟩ := hc.raised alert halert
  obtain ⟨hfirst, hlast⟩ := hraised.finding hrule
  exact hfirst.trans hlast.symm

theorem stored_event (hc : Consistent db pending) (halert : alert ∈ db.alerts) :
    ∃ event, db.eventById alert.eventId = some event := by
  obtain ⟨event, hevent, hraised⟩ := hc.raised alert halert
  exact ⟨event, (eventById_iff hc).mpr ⟨hevent, hraised.eventId.symm⟩⟩

theorem HoldsFinding.key (hP : FindingInv env db) (hrow : row ∈ db.incidents)
    {finding : String × String} (h : HoldsFinding env db row finding) :
    row.correlationKey = findingKey finding.1 finding.2 := by
  obtain ⟨a, ha, hrule, hlink, hof⟩ := h
  obtain ⟨event, hevent, rfl⟩ := Option.map_eq_some_iff.mp hof
  exact hP.key row hrow a ha hrule hlink event hevent

theorem eventById_merged (hm : Merged db db' row row' alertIds) (id : Uuid) :
    db'.eventById id = db.eventById id := by
  unfold eventById
  rw [hm.events]

theorem holdsFinding_merged (hm : Merged db db' row row' alertIds) {r : Incident}
    (hne : r.id ≠ row.id) (finding : String × String) :
    HoldsFinding env db' r finding ↔ HoldsFinding env db r finding := by
  unfold HoldsFinding findingOf
  simp only [hm.alerts, hm.links_of_ne hne, eventById_merged hm]

theorem findingInv_merged (hP : FindingInv env db) (hm : Merged db db' row row' alertIds)
    (hkey : ∀ a ∈ db.alerts, a.ruleId = cloudFindingId → (row.id, a.id) ∈ db'.links →
      ∀ event, db.eventById a.eventId = some event →
        row'.correlationKey = eventFindingKey env event)
    (honly : isFindingKey row'.correlationKey → ∀ a ∈ db.alerts, (row.id, a.id) ∈ db'.links →
      a.ruleId = cloudFindingId)
    (hattained : isFindingKey row'.correlationKey → ∃ a ∈ db.alerts,
      (row.id, a.id) ∈ db'.links ∧ a.lastSeen = row'.lastSeen)
    (hfar : ∀ s ∈ db.incidents, s.id ≠ row.id → isFindingKey s.correlationKey →
      s.correlationKey = row'.correlationKey → ¬ Within (days 90) s.lastSeen row'.lastSeen)
    (hapart : ∀ finding finding', HoldsFinding env db' row' finding →
      HoldsFinding env db' row' finding' → finding = finding') :
    FindingInv env db' := by
  have hid := hm.id
  refine ⟨?_, ?_, ?_, ?_, ?_⟩
  · intro r hr a ha hrule hlink event hevent
    rw [hm.alerts] at ha
    rw [eventById_merged hm] at hevent
    rcases (hm.mem r).mp hr with rfl | ⟨hr, hne⟩
    · exact hkey a ha hrule (hid ▸ hlink) event hevent
    · exact hP.key r hr a ha hrule ((hm.links_of_ne hne a.id).mp hlink) event hevent
  · intro r hr hfinding a ha hlink
    rw [hm.alerts] at ha
    rcases (hm.mem r).mp hr with rfl | ⟨hr, hne⟩
    · exact honly hfinding a ha (hid ▸ hlink)
    · exact hP.only r hr hfinding a ha ((hm.links_of_ne hne a.id).mp hlink)
  · intro r hr hfinding
    rw [hm.alerts]
    rcases (hm.mem r).mp hr with rfl | ⟨hr, hne⟩
    · rw [hid]
      exact hattained hfinding
    · obtain ⟨a, ha, hlink, hlast⟩ := hP.attained r hr hfinding
      exact ⟨a, ha, (hm.links_of_ne hne a.id).mpr hlink, hlast⟩
  · intro r hr s hs hne hfinding hsame hwithin
    rcases (hm.mem r).mp hr with rfl | ⟨hr, hrne⟩
    · rcases (hm.mem s).mp hs with rfl | ⟨hs, hsne⟩
      · exact hne rfl
      · exact hfar s hs hsne (hsame ▸ hfinding) hsame.symm (within_symm hwithin)
    · rcases (hm.mem s).mp hs with rfl | ⟨hs, hsne⟩
      · exact hfar r hr hrne hfinding hsame hwithin
      · exact hP.far r hr s hs hne hfinding hsame hwithin
  · intro r hr finding finding' h h'
    rcases (hm.mem r).mp hr with rfl | ⟨hr, hne⟩
    · exact hapart finding finding' h h'
    · exact hP.apart r hr finding finding' ((holdsFinding_merged hm hne finding).mp h)
        ((holdsFinding_merged hm hne finding').mp h')

theorem no_finding_of_credential (hc : Consistent db (alert :: pending)) (hP : FindingInv env db)
    (hsafe : FindingSafe env db alert) (hrule : alert.ruleId ∈ allowedRules)
    (hne : candidateAlerts env db alert ≠ [])
    (hm : Merged db db' row row' ((candidateAlerts env db alert).map (·.id)))
    (htarget : CredentialTarget env db alert row) {a : Alert} (ha : a ∈ db.alerts)
    (hfinding : a.ruleId = cloudFindingId) : (row.id, a.id) ∉ db'.links := by
  intro hlink
  rcases (hm.mem_links _).mp hlink with hold | ⟨_, hin⟩
  · have hrow := hm.row_of_link hc hold
    obtain ⟨event, hevent⟩ := stored_event hc ha
    have hkey : isFindingKey row.correlationKey := by
      rw [hP.key row hrow a ha hfinding hold event hevent]
      exact isFindingKey_findingKey _ _
    rcases htarget with hsel | ⟨_, _, _, hnew⟩
    · exact hsafe.kept hrule hne row hsel hkey
    · have hid : row.id = db.nextId := by rw [hnew]; rfl
      exact hc.not_linked a.id (hid ▸ hold)
  · obtain ⟨b, hb, hid⟩ := List.mem_map.mp hin
    have hallowed := candidate_rule hb
    rw [eq_of_id hc.alerts_nodup (candidate_stored (hc.pending_stored alert List.mem_cons_self) hb)
      ha hid, hfinding] at hallowed
    exact cloudFinding_not_allowed hallowed

theorem findingInv_credential (hc : Consistent db (alert :: pending)) (hP : FindingInv env db)
    (hsafe : FindingSafe env db alert) (hrule : alert.ruleId ∈ allowedRules)
    (hne : candidateAlerts env db alert ≠ [])
    (hm : Merged db db' row row' ((candidateAlerts env db alert).map (·.id)))
    (htarget : CredentialTarget env db alert row)
    (hkey : row'.correlationKey = credentialKey env db alert) : FindingInv env db' := by
  have hnone : ∀ a ∈ db.alerts, a.ruleId = cloudFindingId → (row.id, a.id) ∉ db'.links :=
    fun a ha hfinding =>
      no_finding_of_credential hc hP hsafe hrule hne hm htarget ha hfinding
  have hcredential : ¬ isFindingKey row'.correlationKey := by
    rw [hkey]
    exact not_isFindingKey_of_isCredentialKey (isCredentialKey_buildCorrelationKey _ _)
  refine findingInv_merged hP hm ?_ (absurd · hcredential) (absurd · hcredential) ?_ ?_
  · exact fun a ha hfinding hlink => absurd hlink (hnone a ha hfinding)
  · exact fun s _ _ hfinding hsame => absurd (hsame ▸ hfinding) hcredential
  · rintro finding finding' ⟨a, ha, hfinding, hlink, _⟩
    exact absurd (hm.id ▸ hlink) (hnone a (hm.alerts ▸ ha) hfinding)

end Invariant

section Finding

variable {env : Env} {db db' : Database} {alert : Alert} {pending : List Alert}
  {row row' : Incident} {event : Event}

theorem findingMatch_iff : findingMatch env event alert row = true ↔
    row.status = "open" ∧ row.correlationKey = eventFindingKey env event ∧
      findingSince alert ≤ row.lastSeen ∧ row.lastSeen ≤ findingUntil alert := by
  simp only [findingMatch, isOpenRelated, identifies, sameIdentity, Bool.and_eq_true,
    Bool.or_eq_true, decide_eq_true_eq, Option.isSome_none, Bool.false_and, Bool.false_eq_true,
    or_false]
  exact and_assoc

theorem finding_of_linked (hc : Consistent db (alert :: pending)) (hP : FindingInv env db)
    (hsafe : FindingSafe env db alert) (hrule : alert.ruleId = cloudFindingId)
    (hfound : db.eventById alert.eventId = some event) (hm : Merged db db' row row' [alert.id])
    (htarget : FindingTarget env db alert event row) {a : Alert} (ha : a ∈ db.alerts)
    (hfinding : a.ruleId = cloudFindingId) (hlink : (row.id, a.id) ∈ db'.links) :
    ∃ other, db.eventById a.eventId = some other ∧
      eventFindingKey env other = eventFindingKey env event ∧
        findingId env other = findingId env event := by
  rcases (hm.mem_links _).mp hlink with hold | ⟨_, hid⟩
  · have hrow := hm.row_of_link hc hold
    obtain ⟨other, hother⟩ := stored_event hc ha
    have hkey := (hP.key row hrow a ha hfinding hold other hother).symm.trans htarget.key
    rcases htarget with hsel | ⟨_, _, _, hnew⟩
    · exact ⟨other, hother, hkey,
        hsafe.distinct hrule event hfound row hrow hsel.2.1 a ha hfinding hold other hother hkey⟩
    · have hid : row.id = db.nextId := by rw [hnew]; rfl
      exact absurd (hid ▸ hold) (hc.not_linked a.id)
  · have hsame := eq_of_id hc.alerts_nodup ha (hc.pending_stored alert List.mem_cons_self)
      (List.mem_singleton.mp hid)
    exact ⟨event, hsame ▸ hfound, rfl, rfl⟩

theorem far_of_finding (hc : Consistent db (alert :: pending)) (hP : FindingInv env db)
    (hsafe : FindingSafe env db alert) (hrule : alert.ruleId = cloudFindingId)
    (hfound : db.eventById alert.eventId = some event)
    (htarget : FindingTarget env db alert event row)
    (hle : row ∈ db.incidents → row.lastSeen ≤ row'.lastSeen)
    (hlast : alert.lastSeen ≤ row'.lastSeen) {s : Incident} (hs : s ∈ db.incidents)
    (hne : s.id ≠ row.id) (hkey : s.correlationKey = eventFindingKey env event) :
    ¬ Within (days 90) s.lastSeen row'.lastSeen := by
  have htimes := finding_times hc (hc.pending_stored alert List.mem_cons_self) hrule
  have huntil := hsafe.ordered hrule event hfound s hs hkey
  rintro ⟨_, hnear⟩
  have hsince : findingSince alert ≤ s.lastSeen := by
    unfold findingSince
    lia
  have hmatch : findingMatch env event alert s = true :=
    findingMatch_iff.mpr ⟨hc.opened s hs, hkey, hsince, huntil⟩
  rcases htarget with hsel | ⟨hnone, _⟩
  · obtain ⟨_, hrkey, hrsince, _⟩ := findingMatch_iff.mp hsel.2.1
    have hnewest := hsel.2.2 s hs hmatch
    have hfar := hP.far s hs row hsel.1 hne (by rw [hkey]; exact isFindingKey_findingKey _ _)
      (hkey.trans hrkey.symm)
    refine hfar ⟨?_, ?_⟩
    · unfold days seconds
      lia
    · have hmono := hle hsel.1
      lia
  · exact Bool.false_ne_true ((hnone s hs).symm.trans hmatch)

theorem findingInv_finding (hc : Consistent db (alert :: pending)) (hP : FindingInv env db)
    (hsafe : FindingSafe env db alert) (hrule : alert.ruleId = cloudFindingId)
    (hfound : db.eventById alert.eventId = some event) (hm : Merged db db' row row' [alert.id])
    (htarget : FindingTarget env db alert event row)
    (hsame : row'.correlationKey = row.correlationKey)
    (hlast : ((db'.alertsForIncident env row.id).map (·.lastSeen)).max? = some row'.lastSeen) :
    FindingInv env db' := by
  have halert := hc.pending_stored alert List.mem_cons_self
  have hkey : row'.correlationKey = eventFindingKey env event := hsame.trans htarget.key
  have hrowkey : isFindingKey row.correlationKey := by
    rw [htarget.key]
    exact isFindingKey_findingKey _ _
  refine findingInv_merged hP hm ?_ ?_ ?_ ?_ ?_
  · intro a ha hfinding hlink other hother
    obtain ⟨other', hother', hk, _⟩ :=
      finding_of_linked hc hP hsafe hrule hfound hm htarget ha hfinding hlink
    rw [hother] at hother'
    cases hother'
    exact hkey.trans hk.symm
  · intro _ a ha hlink
    rcases (hm.mem_links _).mp hlink with hold | ⟨_, hid⟩
    · exact hP.only row (hm.row_of_link hc hold) hrowkey a ha hold
    · rw [eq_of_id hc.alerts_nodup ha halert (List.mem_singleton.mp hid)]
      exact hrule
  · intro _
    obtain ⟨a, ha, hal⟩ := List.mem_map.mp (List.max?_eq_some_iff.mp hlast).1
    obtain ⟨hstored, hlink⟩ := mem_alertsForIncident.mp ha
    exact ⟨a, hm.alerts ▸ hstored, hlink, hal⟩
  · intro s hs hne _ hskey
    refine far_of_finding hc hP hsafe hrule hfound htarget ?_ ?_ hs hne (hskey.trans hkey)
    · intro hrow
      obtain ⟨a, ha, hlink, hal⟩ := hP.attained row hrow hrowkey
      rw [← hal]
      exact lastSeen_le_of_max hlast (hm.alerts ▸ ha) ((hm.mem_links _).mpr (.inl hlink))
    · refine lastSeen_le_of_max hlast (hm.alerts ▸ halert) ?_
      exact (hm.mem_links _).mpr (.inr ⟨rfl, List.mem_cons_self⟩)
  · have hone : ∀ finding, HoldsFinding env db' row' finding → finding = findingId env event := by
      rintro finding ⟨a, ha, hfinding, hlink, hof⟩
      obtain ⟨other, hother, _, hid⟩ := finding_of_linked hc hP hsafe hrule hfound hm htarget
        (hm.alerts ▸ ha) hfinding (hm.id ▸ hlink)
      simp only [findingOf, eventById_merged hm, hother, Option.map_some, Option.some.injEq] at hof
      exact hof.symm.trans hid
    intro finding finding' h h'
    rw [hone finding h, hone finding' h']

theorem finding_correlate (hc : Consistent db (alert :: pending)) (hP : FindingInv env db)
    (hsafe : FindingSafe env db alert) (h : Correlated env db alert db') : FindingInv env db' := by
  cases h with
  | ignored _ _ same => exact same ▸ hP
  | credential row row' firstSeen lastSeen rule candidates merged target refresh first last =>
      exact findingInv_credential hc hP hsafe rule candidates merged target (by rw [refresh]; rfl)
  | finding event row row' scores topScore lastSeen rule found merged target refresh scored top
      last =>
      refine findingInv_finding hc hP hsafe rule found merged target ?_ ?_
      · rw [refresh]
        rfl
      · rw [last, refresh]
        rfl

theorem preserved_findings (env : Env) :
    Preserved env (FindingSafe env) fun db _ => FindingInv env db where
  detect := by
    intro db db' payload alerts hc hP hd
    have hold : ∀ id, ∀ a ∈ db'.alerts, (id, a.id) ∈ db.links → a ∈ db.alerts := by
      intro id a ha hlink
      rw [hd.stored] at ha
      rcases List.mem_append.mp ha with ha | ha
      · exact ha
      · exact absurd hlink (unlinked_of_detected hc hd ha id)
    refine ⟨?_, ?_, ?_, ?_, ?_⟩
    · intro r hr a ha hrule hlink event hevent
      rw [hd.incidents] at hr
      rw [hd.links] at hlink
      have ha := hold r.id a ha hlink
      exact hP.key r hr a ha hrule hlink event ((eventById_detected hc hd ha).symm.trans hevent)
    · intro r hr hkey a ha hlink
      rw [hd.incidents] at hr
      rw [hd.links] at hlink
      exact hP.only r hr hkey a (hold r.id a ha hlink) hlink
    · intro r hr hkey
      rw [hd.incidents] at hr
      obtain ⟨a, ha, hlink, hlast⟩ := hP.attained r hr hkey
      exact ⟨a, hd.stored ▸ List.mem_append_left _ ha, hd.links ▸ hlink, hlast⟩
    · rw [hd.incidents]
      exact hP.far
    · intro r hr finding finding' h h'
      rw [hd.incidents] at hr
      have hback : ∀ f, HoldsFinding env db' r f → HoldsFinding env db r f := by
        rintro f ⟨a, ha, hrule, hlink, hof⟩
        rw [hd.links] at hlink
        have ha := hold r.id a ha hlink
        rw [findingOf, eventById_detected hc hd ha] at hof
        exact ⟨a, ha, hrule, hlink, hof⟩
      exact hP.apart r hr finding finding' (hback finding h) (hback finding' h')
  correlate := fun hc hP hok h => finding_correlate hc hP hok h
  manual := by
    intro db payload hc hP
    refine ⟨?_, ?_, ?_, ?_, ?_⟩
    · intro r hr a ha hrule hlink
      rcases mem_createManualIncident hr with hr | rfl
      · exact hP.key r hr a ha hrule hlink
      · exact absurd hlink (hc.not_linked a.id)
    · intro r hr hkey
      rcases mem_createManualIncident hr with hr | rfl
      · exact hP.only r hr hkey
      · exact absurd hkey (manualKey_not_finding payload db.nextId)
    · intro r hr hkey
      rcases mem_createManualIncident hr with hr | rfl
      · exact hP.attained r hr hkey
      · exact absurd hkey (manualKey_not_finding payload db.nextId)
    · intro r hr s hs hne hkey hsame
      rcases mem_createManualIncident hr with hr | rfl
      · rcases mem_createManualIncident hs with hs | rfl
        · exact hP.far r hr s hs hne hkey hsame
        · exact absurd (hsame ▸ hkey) (manualKey_not_finding payload db.nextId)
      · exact absurd hkey (manualKey_not_finding payload db.nextId)
    · intro r hr finding finding' h h'
      rcases mem_createManualIncident hr with hr | rfl
      · exact hP.apart r hr finding finding' h h'
      · obtain ⟨a, _, _, hlink, _⟩ := h
        exact absurd hlink (hc.not_linked a.id)

theorem matched_not_newer (hc : Consistent db (alert :: pending)) (hP : FindingInv env db)
    (hsafe : FindingSafe env db alert) (hrule : alert.ruleId = cloudFindingId)
    (hfound : db.eventById alert.eventId = some event)
    (hlatest : LatestUpdate env db alert (findingId env event)) (hrow : row ∈ db.incidents)
    (hmatch : findingMatch env event alert row = true) : row.lastSeen ≤ alert.lastSeen := by
  have hkey := findingMatch_key hmatch
  have hfinding := isFindingKey_of_findingMatch hmatch
  obtain ⟨a, ha, hlink, hlast⟩ := hP.attained row hrow hfinding
  have harule := hP.only row hrow hfinding a ha hlink
  obtain ⟨other, hother⟩ := stored_event hc ha
  have hsame := hsafe.distinct hrule event hfound row hrow hmatch a ha harule hlink other hother
    ((hP.key row hrow a ha harule hlink other hother).symm.trans hkey)
  rw [← hlast]
  exact hlatest a ha harule (by rw [findingOf, hother, Option.map_some, hsame])

theorem joins_of_safe (hc : Consistent db (alert :: pending)) (hP : FindingInv env db)
    (hsafe : FindingSafe env db alert) : JoinsIncident env db alert := by
  intro hrule event hfound hlatest row hrow hopen hholds hsince db' hdb'
  have hkey : row.correlationKey = eventFindingKey env event := hholds.key hP hrow
  have hmatch : findingMatch env event alert row = true :=
    findingMatch_iff.mpr ⟨hopen, hkey, hsince, hsafe.ordered hrule event hfound row hrow hkey⟩
  have hle := matched_not_newer hc hP hsafe hrule hfound hlatest hrow hmatch
  cases correlateAlert_cases hdb' with
  | ignored rule _ _ => exact absurd hrule rule
  | credential _ _ _ _ rule _ _ _ _ _ _ => exact absurd (hrule ▸ rule) cloudFinding_not_allowed
  | finding event' found' row' scores topScore lastSeen rule found merged target refresh scored top
      last =>
      rw [hfound] at found
      cases found
      rcases target with hsel | ⟨hnone, _⟩
      · have hid : found'.id = row.id := by
          by_contra hne
          have hnewest := hsel.2.2 row hrow hmatch
          have hnot := matched_not_newer hc hP hsafe hrule hfound hlatest hsel.1 hsel.2.1
          have htimes := finding_times hc (hc.pending_stored alert List.mem_cons_self) hrule
          have hfinding := isFindingKey_of_findingMatch hmatch
          refine hP.far row hrow found' hsel.1 (Ne.symm hne) hfinding
            (hkey.trans (findingMatch_key hsel.2.1).symm) ⟨?_, ?_⟩
          · unfold days seconds
            lia
          · unfold findingSince at hsince
            lia
        refine ⟨(merged.mem_links _).mpr (.inr ⟨hid.symm, List.mem_cons_self⟩), ?_⟩
        rcases merged.rows with ⟨_, hids, _⟩ | ⟨hnew, _⟩
        · exact hids
        · have hlt := hc.incidents_lt found' hsel.1
          rw [hnew] at hlt
          exact absurd hlt (lt_irrefl _)
      · exact absurd ((hnone row hrow).symm.trans hmatch) Bool.false_ne_true

end Finding

section Decidable

variable (env : Env) (db : Database) (alert : Alert)

instance (row : Incident) (finding : String × String) :
    Decidable (HoldsFinding env db row finding) :=
  inferInstanceAs (Decidable (∃ a ∈ db.alerts, a.ruleId = cloudFindingId ∧
    (row.id, a.id) ∈ db.links ∧ findingOf env db a = some finding))

instance (finding : String × String) : Decidable (LatestUpdate env db alert finding) :=
  inferInstanceAs (Decidable (∀ a ∈ db.alerts, a.ruleId = cloudFindingId →
    findingOf env db a = some finding → a.lastSeen ≤ alert.lastSeen))

instance : Decidable (JoinsIncident env db alert) :=
  inferInstanceAs (Decidable (alert.ruleId = cloudFindingId →
    ∀ event ∈ db.eventById alert.eventId, LatestUpdate env db alert (findingId env event) →
      ∀ row ∈ db.incidents, row.status = "open" → HoldsFinding env db row (findingId env event) →
        findingSince alert ≤ row.lastSeen → ∀ db' ∈ correlateAlert env db alert,
          (row.id, alert.id) ∈ db'.links ∧
            db'.incidents.map (·.id) = db.incidents.map (·.id)))

instance : Decidable (KeepsFindings env db alert) :=
  inferInstanceAs (Decidable (alert.ruleId ∈ allowedRules → candidateAlerts env db alert ≠ [] →
    ∀ row, Selected (credentialMatch env db alert) db row → ¬ isFindingKey row.correlationKey))

instance : Decidable (DistinctKeys env db alert) :=
  inferInstanceAs (Decidable (alert.ruleId = cloudFindingId →
    ∀ event ∈ db.eventById alert.eventId, ∀ row ∈ db.incidents,
      findingMatch env event alert row = true → ∀ a ∈ db.alerts, a.ruleId = cloudFindingId →
        (row.id, a.id) ∈ db.links → ∀ other ∈ db.eventById a.eventId,
          eventFindingKey env other = eventFindingKey env event →
            findingId env other = findingId env event))

instance : Decidable (OrderedUpdates env db alert) :=
  inferInstanceAs (Decidable (alert.ruleId = cloudFindingId →
    ∀ event ∈ db.eventById alert.eventId, ∀ row ∈ db.incidents,
      row.correlationKey = eventFindingKey env event → row.lastSeen ≤ findingUntil alert))

instance : Decidable (FindingSafe env db alert) :=
  decidable_of_iff (KeepsFindings env db alert ∧ DistinctKeys env db alert ∧
      OrderedUpdates env db alert)
    ⟨fun h => ⟨h.1, h.2.1, h.2.2⟩, fun h => ⟨h.kept, h.distinct, h.ordered⟩⟩

end Decidable

theorem finding_in_one_incident {env : Env} {db : Database}
    (h : Run (handle env) (correlationsMeet env (FindingSafe env)) Database.empty db) :
    FindingsApart env db ∧ ∀ request, correlationsMeet env (FindingSafe env) db request →
      correlationsMeet env (JoinsIncident env) db request := by
  have hempty : FindingInv env Database.empty := by
    constructor <;> intro r hr <;> cases hr
  refine ⟨((preserved_findings env).committed h hempty).2.apart, ?_⟩
  intro request hok p hp
  obtain ⟨pending, hc, hP⟩ := (preserved_findings env).correlating h hempty hok hp
  exact joins_of_safe hc hP (hok p hp)

def attackedFinding (eventId : String) (second : Int) : EventCreate :=
  finding eventId second (some "victim") (some "198.51.100.60") "account" "finding"

def otherFinding (eventId : String) (second : Int) : EventCreate :=
  finding eventId second (some "admin") none "account" "finding"

theorem update_joins :
    ∃ db, Run (handle plainEnv) (correlationsMeet plainEnv (FindingSafe plainEnv))
        Database.empty db ∧
      (FindingsApart plainEnv db ∧ correlationsMeet plainEnv (JoinsIncident plainEnv) db
        (.createEvent (otherFinding "updated" 200))) ∧ db.links.length = 3 := by
  have hany : (execWhile (handle plainEnv)
      (fun db request => decide (correlationsMeet plainEnv (FindingSafe plainEnv) db request))
      Database.empty [.createEvent (otherFinding "opened" 10), .createEventsBulk firstAttack]).any
        (fun db => decide (db.links.length = 3 ∧ correlationsMeet plainEnv (FindingSafe plainEnv)
          db (.createEvent (otherFinding "updated" 200)))) = true := by
    decide
  obtain ⟨db, hrun, hdb⟩ := run_of_execWhile_any hany
  have hmeets := hrun.mono fun _ _ hok => of_decide_eq_true hok
  obtain ⟨hlinks, hsafe⟩ := of_decide_eq_true hdb
  obtain ⟨hapart, hjoins⟩ := finding_in_one_incident hmeets
  exact ⟨db, hmeets, ⟨hapart, hjoins _ hsafe⟩, hlinks⟩

theorem findings_collide_and_split :
    (∃ db, Run (handle plainEnv) (fun _ request => request.ingests = true) Database.empty db ∧
      ¬ FindingsApart plainEnv db) ∧
    ∃ db, Run (handle plainEnv) (fun _ request => request.ingests = true) Database.empty db ∧
      ¬ correlationsMeet plainEnv (JoinsIncident plainEnv) db
        (.createEvent (attackedFinding "updated" 200)) := by
  constructor
  · have hany : (execWhile (handle plainEnv) (fun _ request => request.ingests) Database.empty
        [.createEvent (finding "first" 10 none none "a:b" "c"),
          .createEvent (finding "second" 20 none none "a" "b:c")]).any
          (fun db => decide (∃ row ∈ db.incidents, HoldsFinding plainEnv db row ("a:b", "c") ∧
            HoldsFinding plainEnv db row ("a", "b:c"))) = true := by
      decide
    obtain ⟨db, hrun, hdb⟩ := run_of_execWhile_any hany
    obtain ⟨row, hrow, hfirst, hsecond⟩ := of_decide_eq_true hdb
    refine ⟨db, hrun, fun hapart => ?_⟩
    exact absurd (hapart row hrow _ _ hfirst hsecond) (by decide)
  · have hany : (execWhile (handle plainEnv) (fun _ request => request.ingests) Database.empty
        [.createEvent (attackedFinding "opened" 10), .createEventsBulk firstAttack]).any
          (fun db => decide (¬ correlationsMeet plainEnv (JoinsIncident plainEnv) db
            (.createEvent (attackedFinding "updated" 200)))) = true := by
      decide
    obtain ⟨db, hrun, hdb⟩ := run_of_execWhile_any hany
    exact ⟨db, hrun, of_decide_eq_true hdb⟩

end Correlation

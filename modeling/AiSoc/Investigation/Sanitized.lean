import AiSoc.Correlation.Timeline
import AiSoc.Investigation.Bounded
import AiSoc.Library.JsonShape

namespace Investigation

open PyJson PyStr PyDatetime
open Correlation (TimelineEntry EntryType createdEntry)

section Texts

def Clean (s : String) : Prop :=
  ∀ c ∈ s.toList, isControl c = false

instance (s : String) : Decidable (Clean s) :=
  List.decidableBAll (fun c => isControl c = false) s.toList

theorem clean_append {s s' : String} (h : Clean s) (h' : Clean s') : Clean (s ++ s') := by
  intro c hc
  rw [String.toList_append, List.mem_append] at hc
  rcases hc with hc | hc
  · exact h c hc
  · exact h' c hc

theorem clean_slice {s : String} (h : Clean s) (limit : Nat) : Clean (slice limit s) := by
  intro c hc
  rw [slice, String.toList_ofList] at hc
  exact h c (List.mem_of_mem_take hc)

theorem clean_strip {s : String} (h : Clean s) : Clean (strip s) := by
  intro c hc
  rw [strip, stripIf, String.toList_ofList] at hc
  have hleft := (List.rdropWhile_prefix _ _).subset hc
  exact h c ((List.dropWhile_suffix _).subset hleft)

theorem clean_cleanString (value : String) (limit : Nat) : Clean (cleanString value limit) := by
  refine clean_slice (clean_strip ?_) limit
  intro c hc
  rw [String.toList_ofList] at hc
  simpa using (List.mem_filter.mp hc).2

theorem hexDigit_printable (d : Nat) (hd : d < 16) : isControl (PyStr.hexDigit d) = false := by
  interval_cases d <;> decide

theorem clean_uuidText (n : Nat) : Clean (uuidText n) := by
  intro c hc
  rcases mem_uuidText hc with rfl | ⟨d, hd, rfl⟩
  · decide
  · exact hexDigit_printable d hd

theorem isControl_digit {c : Char} (h : c.isDigit = true) : isControl c = false := by
  simp only [Char.isDigit, Bool.and_eq_true, decide_eq_true_eq] at h
  obtain ⟨hlow, hhigh⟩ := h
  have hlow' : 48 ≤ c.toNat := hlow
  have hhigh' : c.toNat ≤ 57 := hhigh
  simp only [isControl, Bool.or_eq_false_iff, Bool.and_eq_false_iff, decide_eq_false_iff_not,
    beq_eq_false_iff_ne]
  omega

theorem clean_toString (n : Nat) : Clean (toString n) := by
  intro c hc
  have hdigits : c ∈ Nat.toDigits 10 n := by
    simpa [Nat.toString_eq_repr, Nat.repr, Nat.toList_repr] using hc
  exact isControl_digit (Nat.isDigit_of_mem_toDigits (by decide) (by decide) hdigits)

theorem clean_pad (width : Nat) (n : Int) : Clean (pad width n) := by
  refine clean_append ?_ (clean_toString _)
  intro c hc
  rw [String.toList_ofList] at hc
  rw [List.eq_of_mem_replicate hc]
  decide

theorem clean_isoformat (t : Int) : Clean (isoformat t) := by
  have hend : Clean (if t % microsecondsPerDay % 1000000 = 0 then ""
      else "." ++ pad 6 (t % microsecondsPerDay % 1000000)) := by
    split
    · decide
    · exact clean_append (by decide) (clean_pad _ _)
  unfold isoformat
  exact clean_append (clean_append (clean_append (clean_append (clean_append (clean_append
    (clean_append (clean_append (clean_append (clean_append (clean_append (clean_append
      (clean_pad _ _) (by decide)) (clean_pad _ _)) (by decide)) (clean_pad _ _)) (by decide))
      (clean_pad _ _)) (by decide)) (clean_pad _ _)) (by decide)) (clean_pad _ _)) hend) (by decide)

end Texts

section Sanitize

theorem strings_sanitizeWithin (n : Nat) (value : Json) :
    Strings Clean (sanitizeWithin n value) := by
  induction n generalizing value with
  | zero =>
      have htruncated : Clean "[truncated]" := by decide
      simpa [sanitizeWithin] using Strings.str htruncated
  | succ n ih =>
      cases value with
      | obj fields =>
          simp only [sanitizeWithin]
          refine .obj ?_ ?_
          · intro q hq
            obtain ⟨r, _, rfl⟩ := List.mem_map.mp (mem_ofPairs hq)
            exact clean_cleanString _ _
          · intro q hq
            obtain ⟨r, _, rfl⟩ := List.mem_map.mp (mem_ofPairs hq)
            exact ih r.2
      | arr items =>
          simp only [sanitizeWithin]
          refine .arr fun item hitem => ?_
          obtain ⟨original, _, rfl⟩ := List.mem_map.mp hitem
          exact ih original
      | str s =>
          simp only [sanitizeWithin]
          exact .str (clean_cleanString _ _)
      | null | bool | int | float | infinity | nan => exact .scalar rfl

theorem shallow_sanitizeWithin (n : Nat) (value : Json) :
    Shallow 50 n (sanitizeWithin n value) := by
  induction n generalizing value with
  | zero =>
      simp only [sanitizeWithin]
      exact .str _
  | succ n ih =>
      cases value with
      | obj fields =>
          simp only [sanitizeWithin]
          refine .obj ?_ ?_
          · refine (length_ofPairs_le _).trans ?_
            rw [List.length_map]
            exact List.length_take_le 50 fields
          · intro q hq
            obtain ⟨r, _, rfl⟩ := List.mem_map.mp (mem_ofPairs hq)
            exact ih r.2
      | arr items =>
          simp only [sanitizeWithin]
          refine .arr ?_ fun item hitem => ?_
          · rw [List.length_map]
            exact List.length_take_le 50 items
          · obtain ⟨original, _, rfl⟩ := List.mem_map.mp hitem
            exact ih original
      | str s =>
          simp only [sanitizeWithin]
          exact .str _
      | null | bool | int | float | infinity | nan => exact .scalar rfl

theorem strings_sanitizeEntry (entry : Obj) : Strings Clean (.obj (sanitizeEntry entry)) := by
  refine .obj ?_ ?_
  · intro q hq
    obtain ⟨r, _, rfl⟩ := List.mem_map.mp (mem_ofPairs hq)
    exact clean_cleanString _ _
  · intro q hq
    obtain ⟨r, _, rfl⟩ := List.mem_map.mp (mem_ofPairs hq)
    exact strings_sanitizeWithin _ _

theorem shallow_sanitizeEntry (entry : Obj) : Shallow 50 3 (.obj (sanitizeEntry entry)) := by
  refine .obj ?_ ?_
  · refine (length_ofPairs_le _).trans ?_
    rw [List.length_map]
    exact List.length_take_le 50 entry
  · intro q hq
    obtain ⟨r, _, rfl⟩ := List.mem_map.mp (mem_ofPairs hq)
    exact shallow_sanitizeWithin 2 r.2

inductive Recorded : Obj → Prop where
  | correlated (entry : TimelineEntry) : Recorded entry.toJson
  | created (now : Int) (title description : String)
      (primaryUsername primarySourceIp : Option String) (presetScenario : String) :
      Recorded (createdEntry now title description primaryUsername primarySourceIp presetScenario)

def correlatedKeys : List String :=
  ["timestamp", "type", "title", "description", "event_id", "alert_id", "rule_id", "username",
    "source_ip", "metadata"]

def createdKeys : List String :=
  ["timestamp", "type", "title", "description", "username", "source_ip", "metadata"]

theorem sanitizeEntry_of_keys {entry : Obj} {keys : List String} (h : entry.map Prod.fst = keys)
    (hkeys : ∀ key ∈ keys, cleanString key 100 = key) (hnodup : keys.Nodup)
    (hlen : keys.length ≤ 50) :
    sanitizeEntry entry = entry.map fun p => (p.1, sanitize 2 p.2) := by
  subst h
  have hmap : (entry.map fun p => (cleanString p.1 100, sanitize 2 p.2)) =
      entry.map fun p => (p.1, sanitize 2 p.2) := by
    refine List.map_congr_left fun p hp => ?_
    rw [hkeys p.1 (List.mem_map_of_mem hp)]
  rw [List.length_map] at hlen
  rw [sanitizeEntry, List.take_of_length_le hlen, hmap]
  refine ofPairs_of_nodup ?_
  rw [List.map_map]
  exact hnodup

def Described (entry : Obj) : Prop :=
  (∃ s, entry.get "description" = some (.str s)) ∧ ∃ value, entry.get "metadata" = some value

theorem described_sanitizeEntry {entry : Obj} (h : Recorded entry) :
    Described (sanitizeEntry entry) := by
  cases h with
  | correlated entry =>
      have hkeys : entry.toJson.map Prod.fst = correlatedKeys := rfl
      rw [sanitizeEntry_of_keys hkeys (by decide) (by decide) (by decide)]
      exact ⟨⟨_, rfl⟩, ⟨_, rfl⟩⟩
  | created now title description primaryUsername primarySourceIp presetScenario =>
      have hkeys : (createdEntry now title description primaryUsername primarySourceIp
          presetScenario).map Prod.fst = createdKeys := rfl
      rw [sanitizeEntry_of_keys hkeys (by decide) (by decide) (by decide)]
      exact ⟨⟨_, rfl⟩, ⟨_, rfl⟩⟩

end Sanitize

section Accepted

def eventCategories : List String :=
  ["authentication", "network", "cloud", "application", "file_access", "privilege_change",
    "process", "api", "security_finding"]

def ruleIds : List String :=
  ["rule_001_brute_force", "rule_002_password_spray", "rule_003_suspicious_privilege_change",
    "rule_004_large_download", "rule_005_login_after_failures", "rule_006_cloud_finding",
    "rule_006_ml_anomaly"]

def incidentStatuses : List String := ["open", "investigating", "contained", "resolved"]

def evidenceKinds : List String :=
  ["analyst_observation", "network_observation", "asset_configuration", "identity_activity",
    "vulnerability_report"]

def zones : List String := ["internet", "dmz", "internal", "restricted", "unknown"]

def protocols : List String := ["tcp", "udp"]

def dispositions : List String := ["allowed", "blocked", "unknown"]

def coreTechniqueIds : List String := ["T1110", "T1110.003", "T1098", "T1005", "T1078"]

def classifierLabels : List String :=
  ["credential_compromise", "privilege_abuse", "data_exfiltration", "cloud_exposure",
    "exposed_credentials"]

structure NetworkObservation where
  sourceZone : String
  destinationZone : String
  destinationPort : Int
  protocol : String
  disposition : String
  zoned : sourceZone ∈ zones ∧ destinationZone ∈ zones
  known : protocol ∈ protocols ∧ disposition ∈ dispositions

def NetworkObservation.modelDump (network : NetworkObservation) : Obj :=
  [("source_zone", .str network.sourceZone), ("destination_zone", .str network.destinationZone),
    ("destination_port", .int network.destinationPort), ("protocol", .str network.protocol),
    ("disposition", .str network.disposition)]

structure Classification where
  modelVersion : String
  labels : List String
  probabilities : List (String × PyFloat)
  version : Clean modelVersion
  known : labels ⊆ classifierLabels ∧ probabilities.map Prod.fst ⊆ classifierLabels

def Classification.toJson (classification : Classification) : Obj :=
  [("model_version", .str classification.modelVersion), ("labels", strs classification.labels),
    ("probabilities", .obj (classification.probabilities.map fun p => (p.1, .float p.2)))]

structure Accepted (reads : ContextReads) (incident : IncidentRow) : Prop where
  levels : incident.status ∈ incidentStatuses ∧ incident.severity ∈ severities
  timeline : ∀ entry ∈ incident.timeline, Recorded entry
  alerts : ∀ alert ∈ reads.alerts, alert.ruleId ∈ ruleIds ∧ alert.severity ∈ severities
  events : ∀ event ∈ reads.events, event.eventType ∈ eventTypes ∧
    event.category ∈ eventCategories ∧ ∀ severity ∈ event.severity, severity ∈ severities
  techniques : ∀ technique ∈ reads.techniques, technique.externalId ∈ coreTechniqueIds
  evidence : ∀ item ∈ reads.attachedEvidence, item.kind ∈ evidenceKinds ∧
    ∀ network ∈ item.network, ∃ observation : NetworkObservation, network = observation.modelDump
  classification : ∀ detector ∈ reads.classification,
    ∃ classification : Classification, detector = classification.toJson

end Accepted

section Contexts

structure Sanitized (context : InvestigationContext) : Prop where
  incident : Strings Clean context.incident.toJson
  alerts : ∀ alert ∈ context.alerts, Strings Clean alert.toJson ∧ Shallow 50 4 alert.evidence
  events : ∀ event ∈ context.events, Strings Clean event.toJson
  evidence : ∀ item ∈ context.incidentEvidence, Strings Clean item.toJson
  timeline : Strings Clean (.arr (context.timeline.map .obj)) ∧
    Shallow 50 4 (.arr (context.timeline.map .obj))
  refs : ∀ ref ∈ context.validEvidenceRefs, Clean ref

theorem strings_optStr {s : Option String} (h : ∀ text ∈ s, Clean text) :
    Strings Clean (optStr s) := by
  cases s with
  | none => exact .scalar rfl
  | some text => exact .str (h text rfl)

theorem strings_cleanOptional (s : Option String) :
    Strings Clean (optStr (cleanOptional s)) := by
  refine strings_optStr fun text htext => ?_
  obtain ⟨value, _, rfl⟩ := Option.map_eq_some_iff.mp htext
  exact clean_cleanString value 500

theorem strings_optInt (n : Option Int) : Strings Clean (optInt n) := by
  cases n <;> exact .scalar rfl

theorem strings_strs {items : List String} (h : ∀ s ∈ items, Clean s) :
    Strings Clean (strs items) := by
  refine .arr fun item hitem => ?_
  obtain ⟨s, hs, rfl⟩ := List.mem_map.mp hitem
  exact .str (h s hs)

def vocabularies : List (List String) :=
  [severities, incidentStatuses, ruleIds, eventTypes, eventCategories, evidenceKinds,
    classifierLabels, coreTechniqueIds, zones, protocols, dispositions]

theorem clean_vocabularies : ∀ words ∈ vocabularies, ∀ s ∈ words, Clean s := by decide

theorem clean_word {words : List String} (hwords : words ∈ vocabularies) {s : String}
    (h : s ∈ words) : Clean s :=
  clean_vocabularies words hwords s h

theorem clean_literal {words : List String} (hwords : words ∈ vocabularies) {s : String}
    (h : s ∈ words) : Strings Clean (.str s) :=
  .str (clean_word hwords h)

theorem strings_cleanString (value : String) (limit : Nat) :
    Strings Clean (.str (cleanString value limit)) :=
  .str (clean_cleanString value limit)

theorem strings_alert {alert : AlertRow} {description : String} {evidence : Json}
    (hrule : alert.ruleId ∈ ruleIds) (hseverity : alert.severity ∈ severities)
    (hdescription : Clean description) (hevidence : Strings Clean evidence) :
    Strings Clean { alertContext alert with
      description := description, evidence := evidence }.toJson := by
  have hid := clean_uuidText alert.id
  exact .cons (by decide) (.str (clean_append (by decide) hid)) <|
    .cons (by decide) (.str hid) <|
    .cons (by decide) (clean_literal (by simp [vocabularies]) hrule) <|
    .cons (by decide) (strings_cleanString _ _) <|
    .cons (by decide) (.str hdescription) <|
    .cons (by decide) (clean_literal (by simp [vocabularies]) hseverity) <|
    .cons (by decide) (.scalar rfl) <|
    .cons (by decide) (strings_cleanOptional _) <|
    .cons (by decide) (strings_cleanOptional _) <|
    .cons (by decide) (.str (clean_isoformat _)) <|
    .cons (by decide) (.str (clean_isoformat _)) <|
    .cons (by decide) hevidence .nil

theorem eventContext_sanitized {event : EventRow} (htype : event.eventType ∈ eventTypes)
    (hcategory : event.category ∈ eventCategories)
    (hseverity : ∀ severity ∈ event.severity, severity ∈ severities)
    (hid : Clean event.eventId) (hsource : Clean event.sourceType) :
    Strings Clean (eventContext event).toJson :=
  .cons (by decide) (.str (clean_append (by decide) hid)) <|
    .cons (by decide) (.str hid) <|
    .cons (by decide) (.str (clean_isoformat _)) <|
    .cons (by decide) (strings_cleanString _ _) <|
    .cons (by decide) (.str hsource) <|
    .cons (by decide) (clean_literal (by simp [vocabularies]) htype) <|
    .cons (by decide) (clean_literal (by simp [vocabularies]) hcategory) <|
    .cons (by decide) (strings_optStr fun s hs => clean_word (by simp [vocabularies]) (hseverity s hs)) <|
    .cons (by decide) (strings_cleanOptional _) <|
    .cons (by decide) (strings_cleanOptional _) <|
    .cons (by decide) (strings_cleanOptional _) <|
    .cons (by decide) (strings_cleanOptional _) <|
    .cons (by decide) (strings_cleanOptional _) <|
    .cons (by decide) (strings_cleanOptional _) <|
    .cons (by decide) (strings_cleanOptional _) <|
    .cons (by decide) (strings_optInt _) <|
    .cons (by decide) (strings_optInt _) .nil

theorem event_ids_of_strings {event : EventRow}
    (h : Strings Clean (eventContext event).toJson) :
    Clean event.eventId ∧ Clean event.sourceType := by
  refine ⟨strings_str (strings_value h (List.mem_cons_of_mem _ List.mem_cons_self)), ?_⟩
  refine strings_str (strings_value h (q := ("source_type", .str event.sourceType)) ?_)
  exact List.mem_cons_of_mem _ (List.mem_cons_of_mem _ (List.mem_cons_of_mem _
    (List.mem_cons_of_mem _ List.mem_cons_self)))

theorem networkObservation_sanitized (network : NetworkObservation) :
    Strings Clean (.obj network.modelDump) := by
  exact .cons (by decide) (clean_literal (by simp [vocabularies]) network.zoned.1) <|
    .cons (by decide) (clean_literal (by simp [vocabularies]) network.zoned.2) <|
    .cons (by decide) (.scalar rfl) <|
    .cons (by decide) (clean_literal (by simp [vocabularies]) network.known.1) <|
    .cons (by decide) (clean_literal (by simp [vocabularies]) network.known.2) .nil

theorem evidenceContext_sanitized {item : EvidenceRow} (hkind : item.kind ∈ evidenceKinds)
    (hnetwork : ∀ network ∈ item.network,
      ∃ observation : NetworkObservation, network = observation.modelDump) :
    Strings Clean (evidenceContext item).toJson := by
  have hobserved : Strings Clean (item.network.elim .null .obj) := by
    cases hitem : item.network with
    | none => exact .scalar rfl
    | some network =>
        obtain ⟨observation, rfl⟩ := hnetwork network hitem
        exact networkObservation_sanitized observation
  have htime : Strings Clean (optStr (item.observedAt.map isoformat)) := by
    refine strings_optStr fun text htext => ?_
    obtain ⟨time, _, rfl⟩ := Option.map_eq_some_iff.mp htext
    exact clean_isoformat time
  have hprovenance : Clean "analyst_supplied_unverified" := by decide
  exact .cons (by decide) (.str (clean_append (by decide) (clean_uuidText _))) <|
    .cons (by decide) (clean_literal (by simp [vocabularies]) hkind) <|
    .cons (by decide) (strings_cleanString _ _) <|
    .cons (by decide) (strings_cleanString _ _) <|
    .cons (by decide) hobserved <|
    .cons (by decide) htime <|
    .cons (by decide) (.str hprovenance) .nil

theorem classification_sanitized (classification : Classification) :
    Strings Clean (.obj classification.toJson) := by
  have hprobabilities : Strings Clean
      (.obj (classification.probabilities.map fun p => (p.1, .float p.2))) := by
    refine .obj ?_ ?_
    · intro q hq
      obtain ⟨r, hr, rfl⟩ := List.mem_map.mp hq
      exact clean_word (by simp [vocabularies]) (classification.known.2 (List.mem_map_of_mem hr))
    · intro q hq
      obtain ⟨r, _, rfl⟩ := List.mem_map.mp hq
      exact .scalar rfl
  exact .cons (by decide) (.str classification.version) <|
    .cons (by decide)
      (strings_strs fun s hs => clean_word (by simp [vocabularies]) (classification.known.1 hs)) <|
    .cons (by decide) hprobabilities .nil

theorem clean_evidenceQuality (quality : EvidenceQuality) : Clean quality.value := by
  cases quality <;> decide

theorem incidentContext_sanitized {incident : IncidentRow} {quality : EvidenceQuality}
    {detector : Option Obj} (hstatus : incident.status ∈ incidentStatuses)
    (hseverity : incident.severity ∈ severities)
    (hdetector : ∀ d ∈ detector, ∃ classification : Classification, d = classification.toJson)
    (truncated : Bool) :
    Strings Clean { incidentContext incident quality detector with
      contextTruncated := truncated }.toJson := by
  refine .append (.append ?_ ?_) ?_
  · exact .cons (by decide) (.str (clean_uuidText _)) <|
      .cons (by decide) (strings_cleanString _ _) <|
      .cons (by decide) (strings_cleanString _ _) <|
      .cons (by decide) (clean_literal (by simp [vocabularies]) hstatus) <|
      .cons (by decide) (clean_literal (by simp [vocabularies]) hseverity) <|
      .cons (by decide) (.scalar rfl) <|
      .cons (by decide) (strings_cleanOptional _) <|
      .cons (by decide) (strings_cleanOptional _) <|
      .cons (by decide) (.str (clean_isoformat _)) <|
      .cons (by decide) (.str (clean_isoformat _)) <|
      .cons (by decide) (.str (clean_evidenceQuality _)) .nil
  · cases hd : detector with
    | none => exact .nil
    | some d =>
        obtain ⟨classification, rfl⟩ := hdetector d hd
        exact .cons (by decide) (classification_sanitized classification) .nil
  · cases truncated with
    | false => exact .nil
    | true => exact .cons (by decide) (.scalar rfl) .nil

end Contexts

section Timelines

theorem strings_timeline {timeline : List Obj}
    (h : ∀ entry ∈ timeline, Strings Clean (.obj entry)) :
    Strings Clean (.arr (timeline.map .obj)) := by
  refine .arr fun item hitem => ?_
  obtain ⟨entry, hentry, rfl⟩ := List.mem_map.mp hitem
  exact h entry hentry

theorem shallow_timeline {timeline : List Obj} (hlen : timeline.length ≤ 50)
    (h : ∀ entry ∈ timeline, Shallow 50 3 (.obj entry)) :
    Shallow 50 4 (.arr (timeline.map .obj)) := by
  refine .arr (by rwa [List.length_map]) fun item hitem => ?_
  obtain ⟨entry, hentry, rfl⟩ := List.mem_map.mp hitem
  exact h entry hentry

theorem shortenEntry_sanitized {py : PyText} {entry : Obj} (hdescribed : Described entry)
    (hclean : Strings Clean (.obj entry)) (hshallow : Shallow 50 3 (.obj entry)) :
    Strings Clean (.obj (shortenEntry py entry)) ∧
      Shallow 50 3 (.obj (shortenEntry py entry)) := by
  obtain ⟨⟨description, hdescription⟩, metadata, hmetadata⟩ := hdescribed
  obtain ⟨hlen, hvalues⟩ := shallow_fields hshallow
  have hmem : ("description", Json.str description) ∈ entry := mem_of_get hdescription
  have htext : Clean description := strings_str (strings_value hclean hmem)
  have hshort : shortenEntry py entry =
      (entry.set "description" (.str (slice 500 description))).set "metadata" (.obj []) := by
    simp only [shortenEntry, hdescription, Option.getD_some, PyText.str]
  rw [hshort]
  refine ⟨strings_set (strings_set hclean (by decide) (.str (clean_slice htext 500))) (by decide)
    .nil, .obj ?_ ?_⟩
  · have hkept : (entry.set "description" (.str (slice 500 description))).get "metadata" =
        some metadata := by
      rw [Obj.get_set_of_ne _ _ (by decide), hmetadata]
    rw [length_set_of_get _ hkept, length_set_of_get _ hdescription]
    exact hlen
  · intro q hq
    rcases mem_set hq with rfl | hq
    · exact .obj (by decide) nofun
    · rcases mem_set hq with rfl | hq
      · exact .str _
      · exact hvalues q hq

end Timelines

section Build

variable {reads : ContextReads} {incident : IncidentRow}

def CleanIds (reads : ContextReads) : Prop :=
  ∀ event ∈ eventsOfAlerts reads.alerts reads.events,
    Clean event.eventId ∧ Clean event.sourceType

theorem mem_eventsOfAlerts {alerts : List AlertRow} {events : List EventRow} {event : EventRow}
    (h : event ∈ eventsOfAlerts alerts events) : event ∈ events := by
  obtain ⟨alert, _, hfind⟩ := List.mem_filterMap.mp h
  exact List.mem_of_find?_eq_some hfind

theorem events_sanitized (hacc : Accepted reads incident) (hids : CleanIds reads) :
    ∀ event ∈ (untruncated reads incident).events, Strings Clean event.toJson := by
  intro event hevent
  obtain ⟨row, hrow, rfl⟩ := List.mem_map.mp hevent
  obtain ⟨htype, hcategory, hseverity⟩ := hacc.events row (mem_eventsOfAlerts hrow)
  obtain ⟨hid, hsource⟩ := hids row hrow
  exact eventContext_sanitized htype hcategory hseverity hid hsource

theorem evidence_sanitized (hacc : Accepted reads incident) :
    ∀ item ∈ (untruncated reads incident).incidentEvidence, Strings Clean item.toJson := by
  intro item hitem
  obtain ⟨row, hrow, rfl⟩ := List.mem_map.mp hitem
  obtain ⟨hkind, hnetwork⟩ := hacc.evidence row (List.mem_of_mem_take hrow)
  exact evidenceContext_sanitized hkind hnetwork

theorem ref_of_alert {alert : AlertContext} (h : Strings Clean alert.toJson) : Clean alert.ref :=
  strings_str (strings_value h List.mem_cons_self)

theorem ref_of_event {event : EventContext} (h : Strings Clean event.toJson) : Clean event.ref :=
  strings_str (strings_value h List.mem_cons_self)

theorem ref_of_evidence {item : EvidenceContext} (h : Strings Clean item.toJson) :
    Clean item.ref :=
  strings_str (strings_value h List.mem_cons_self)

theorem refs_sanitized {context : InvestigationContext}
    (hincident : Clean context.incident.id)
    (halerts : ∀ alert ∈ context.alerts, Strings Clean alert.toJson)
    (hevents : ∀ event ∈ context.events, Strings Clean event.toJson)
    (hevidence : ∀ item ∈ context.incidentEvidence, Strings Clean item.toJson)
    (htechniques : ∀ technique ∈ context.techniques, Clean technique.techniqueId) {ref : String}
    (h : Cited context ref) : Clean ref := by
  rcases h with rfl | ⟨alert, hmem, rfl⟩ | ⟨event, hmem, rfl⟩ | ⟨item, hmem, rfl⟩ |
    ⟨technique, hmem, rfl⟩
  · exact clean_append (by decide) hincident
  · exact ref_of_alert (halerts alert hmem)
  · exact ref_of_event (hevents event hmem)
  · exact ref_of_evidence (hevidence item hmem)
  · exact clean_append (by decide) (htechniques technique hmem)

theorem techniques_clean (hacc : Accepted reads incident) :
    ∀ technique ∈ (untruncated reads incident).techniques, Clean technique.techniqueId := by
  intro technique htechnique
  obtain ⟨row, hrow, rfl⟩ := List.mem_map.mp htechnique
  exact clean_word (by simp [vocabularies]) (hacc.techniques row hrow)

theorem untruncated_sanitized (hacc : Accepted reads incident) (hids : CleanIds reads) :
    Sanitized (untruncated reads incident) := by
  have halerts : ∀ alert ∈ (untruncated reads incident).alerts,
      Strings Clean alert.toJson ∧ Shallow 50 4 alert.evidence := by
    intro alert halert
    obtain ⟨row, hrow, rfl⟩ := List.mem_map.mp halert
    obtain ⟨hrule, hseverity⟩ := hacc.alerts row hrow
    exact ⟨strings_alert hrule hseverity (clean_cleanString _ _) (strings_sanitizeWithin 4 _),
      shallow_sanitizeWithin 4 row.evidence⟩
  have htimeline : ∀ entry ∈ (untruncated reads incident).timeline,
      ∃ original, entry = sanitizeEntry original := by
    intro entry hentry
    obtain ⟨original, _, rfl⟩ := List.mem_map.mp hentry
    exact ⟨original, rfl⟩
  refine ⟨?_, halerts, events_sanitized hacc hids, evidence_sanitized hacc, ⟨?_, ?_⟩, ?_⟩
  · exact incidentContext_sanitized hacc.levels.1 hacc.levels.2 hacc.classification false
  · refine strings_timeline fun entry hentry => ?_
    obtain ⟨original, rfl⟩ := htimeline entry hentry
    exact strings_sanitizeEntry original
  · refine shallow_timeline ?_ fun entry hentry => ?_
    · simp only [untruncated, List.length_map]
      exact List.length_take_le 50 _
    · obtain ⟨original, rfl⟩ := htimeline entry hentry
      exact shallow_sanitizeEntry original
  · intro ref href
    have hcited := ((untruncated_closed reads incident).cited ref).mp href
    have hid : Clean (untruncated reads incident).incident.id := clean_uuidText incident.id
    exact refs_sanitized hid (fun alert h => (halerts alert h).1)
      (events_sanitized hacc hids) (evidence_sanitized hacc) (techniques_clean hacc) hcited

theorem shortened_sanitized (py : PyText) (hacc : Accepted reads incident)
    (hids : CleanIds reads) : Sanitized (shorten py (untruncated reads incident)) := by
  have hbase := untruncated_sanitized hacc hids
  have htimeline : ∀ entry ∈ (shorten py (untruncated reads incident)).timeline,
      Strings Clean (.obj entry) ∧ Shallow 50 3 (.obj entry) := by
    intro entry hentry
    obtain ⟨sanitized, hsanitized, rfl⟩ := List.mem_map.mp hentry
    obtain ⟨original, horiginal, rfl⟩ := List.mem_map.mp (List.mem_of_mem_drop hsanitized)
    have hrecorded := hacc.timeline original (List.mem_of_mem_take horiginal)
    exact shortenEntry_sanitized (described_sanitizeEntry hrecorded)
      (strings_sanitizeEntry original) (shallow_sanitizeEntry original)
  refine ⟨?_, ?_, ?_, ?_, ⟨?_, ?_⟩, hbase.refs⟩
  · exact incidentContext_sanitized hacc.levels.1 hacc.levels.2 hacc.classification true
  · intro alert halert
    obtain ⟨long, hlong, rfl⟩ := List.mem_map.mp halert
    obtain ⟨row, hrow, rfl⟩ := List.mem_map.mp (List.mem_of_mem_drop hlong)
    obtain ⟨hrule, hseverity⟩ := hacc.alerts row hrow
    exact ⟨strings_alert hrule hseverity (clean_slice (clean_cleanString _ _) 500)
      (strings_sanitizeWithin 2 _), (shallow_sanitizeWithin 2 _).mono (by decide)⟩
  · exact fun event hevent => hbase.events event (List.drop_subset _ _ hevent)
  · exact fun item hitem => hbase.evidence item (List.take_subset _ _ hitem)
  · exact strings_timeline fun entry hentry => (htimeline entry hentry).1
  · refine shallow_timeline ?_ fun entry hentry => (htimeline entry hentry).2
    have hlen : (untruncated reads incident).timeline.length ≤ 50 := by
      simp only [untruncated, List.length_map]
      exact List.length_take_le 50 _
    simp only [shorten, lastItems, List.length_map, List.length_drop]
    omega

theorem popOne_sanitized {context context' : InvestigationContext} (h : Sanitized context)
    (hpop : popOne context = some context') : Sanitized context' := by
  have htail : Strings Clean (.arr (context.timeline.tail.map .obj)) ∧
      Shallow 50 4 (.arr (context.timeline.tail.map .obj)) := by
    obtain ⟨hlen, hshallow⟩ := shallow_items h.timeline.2
    have hsub : context.timeline.tail.map Json.obj ⊆ context.timeline.map Json.obj :=
      List.map_subset _ (List.tail_subset _)
    refine ⟨.arr fun item hitem => strings_item h.timeline.1 (hsub hitem), .arr ?_ ?_⟩
    · rw [List.length_map] at hlen
      rw [List.length_map, List.length_tail]
      omega
    · exact fun item hitem => hshallow item (hsub hitem)
  simp only [popOne] at hpop
  split at hpop
  · cases hpop
    exact ⟨h.incident, h.alerts, h.events, h.evidence, htail, h.refs⟩
  · split at hpop
    · cases hpop
      exact ⟨h.incident, h.alerts, fun e he => h.events e (List.mem_of_mem_tail he), h.evidence,
        h.timeline, h.refs⟩
    · split at hpop
      · cases hpop
        exact ⟨h.incident, fun a ha => h.alerts a (List.mem_of_mem_tail ha), h.events, h.evidence,
          h.timeline, h.refs⟩
      · split at hpop
        · cases hpop
          exact ⟨h.incident, h.alerts, h.events,
            fun i hi => h.evidence i (List.mem_of_mem_dropLast hi), h.timeline, h.refs⟩
        · cases hpop

theorem build_sanitized {py : PyText} {maxChars : Int} {context : InvestigationContext}
    (hincident : reads.incident = some incident) (hacc : Accepted reads incident)
    (hids : CleanIds reads) (h : build py maxChars reads = .ok context) : Sanitized context := by
  have hbase := untruncated_sanitized hacc hids
  have hshort := shortened_sanitized py hacc hids
  have htrimmed := trimmed_shorten py (untruncated reads incident)
  have hclosed := untruncated_closed reads incident
  have hid : (untruncated reads incident).incident.id ≠ "" := uuidText_ne_empty incident.id
  simp only [build, hincident] at h
  generalize untruncated reads incident = base at h hbase hshort htrimmed hclosed hid
  simp only [enforceSize] at h
  split at h
  · cases h
    exact hbase
  · split at h
    · cases h
    · rename_i trimmed hpop
      cases h
      have hkept : ∀ context context', Trimmed base context ∧ Sanitized context →
          popOne context = some context' → Trimmed base context' ∧ Sanitized context' :=
        fun _ _ h hpop => ⟨trimmed_popOne h.1 hpop, popOne_sanitized h.2 hpop⟩
      obtain ⟨⟨htrim, hclean⟩, _⟩ := popUntilFits_invariant hkept ⟨htrimmed, hshort⟩ hpop
      refine ⟨hclean.incident, hclean.alerts, hclean.events, hclean.evidence, hclean.timeline, ?_⟩
      intro ref href
      rw [← htrim.incidentId] at hid
      have hcited := htrim.cited ((mem_retainedRefs hid ref).mp href)
      exact hbase.refs ref ((hclosed.cited ref).mpr hcited)

theorem telemetry_sanitized_iff (reads : ContextReads) (incident : IncidentRow)
    (hincident : reads.incident = some incident) (hacc : Accepted reads incident) :
    (∀ py maxChars context, build py maxChars reads = .ok context → Sanitized context) ↔
      CleanIds reads := by
  constructor
  · intro h event hevent
    have hbuild : build asciiText (serializedSize (untruncated reads incident)) reads =
        .ok (untruncated reads incident) := by
      simp only [build, hincident, enforceSize, le_refl, if_true]
    have hclean := (h _ _ _ hbuild).events (eventContext event) (List.mem_map_of_mem hevent)
    exact event_ids_of_strings hclean
  · intro hids py maxChars context hbuild
    exact build_sanitized hincident hacc hids hbuild

end Build

section Examples

def noIncident : IncidentRow where
  id := 1
  title := ""
  description := ""
  status := "open"
  severity := "low"
  riskScore := 0
  primaryUsername := none
  primarySourceIp := none
  firstSeen := 0
  lastSeen := 0
  timeline := []

def oneAlert : AlertRow where
  id := 2
  eventId := 3
  ruleId := "rule_006_cloud_finding"
  title := ""
  description := ""
  severity := "low"
  confidence := ⟨false, 0, 0, by decide⟩
  sourceIp := none
  username := none
  firstSeen := 0
  lastSeen := 0
  evidence := .null

def oneEvent (eventId : String) : EventRow where
  id := 3
  eventId := eventId
  timestamp := 0
  source := "s"
  sourceType := "t"
  eventType := "cloud_finding"
  category := "cloud"
  severity := none
  username := none
  sourceIp := none
  destinationIp := none
  hostname := none
  action := none
  status := none
  resource := none
  bytesSent := none
  bytesReceived := none

def oneEventReads (eventId : String) : ContextReads :=
  ⟨some noIncident, [oneAlert], [oneEvent eventId], [], [], none⟩

theorem accepted_oneEvent (eventId : String) : Accepted (oneEventReads eventId) noIncident where
  levels := by decide
  timeline := nofun
  alerts alert halert := by
    obtain rfl := List.mem_singleton.mp halert
    decide
  events event hevent := by
    obtain rfl := List.mem_singleton.mp hevent
    have htype : "cloud_finding" ∈ eventTypes := by decide
    have hcategory : "cloud" ∈ eventCategories := by decide
    exact ⟨htype, hcategory, nofun⟩
  techniques := nofun
  evidence := nofun
  classification := nofun

theorem cleanIds_oneEvent {eventId : String} (h : Clean eventId) :
    CleanIds (oneEventReads eventId) := by
  intro event hevent
  obtain rfl := List.mem_singleton.mp (mem_eventsOfAlerts hevent)
  have hsource : Clean "t" := by decide
  exact ⟨h, hsource⟩

theorem plainEvent_sanitized : CleanIds (oneEventReads "e") ∧
    ∀ py maxChars context, build py maxChars (oneEventReads "e") = .ok context →
      Sanitized context := by
  have hids : CleanIds (oneEventReads "e") := cleanIds_oneEvent (by decide)
  refine ⟨hids, ?_⟩
  exact (telemetry_sanitized_iff (oneEventReads "e") noIncident rfl (accepted_oneEvent "e")).mpr
    hids

theorem escapedEvent_shown : ∃ (maxChars : Int) (context : InvestigationContext),
    build asciiText maxChars (oneEventReads "\x1b") = .ok context ∧ ¬ Sanitized context := by
  have hbuild : build asciiText (serializedSize (untruncated (oneEventReads "\x1b") noIncident))
      (oneEventReads "\x1b") = .ok (untruncated (oneEventReads "\x1b") noIncident) := by
    simp only [build, oneEventReads, enforceSize, le_refl, if_true]
  refine ⟨_, _, hbuild, fun hclean => ?_⟩
  have hevent := hclean.events (eventContext (oneEvent "\x1b")) List.mem_cons_self
  have hid : ¬ Clean "\x1b" := by decide
  exact hid (event_ids_of_strings hevent).1

end Examples

end Investigation

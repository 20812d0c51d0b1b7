import AiSoc.Ml.IncidentFeatures

namespace Ml

open Investigation (AlertRow EventRow EventContext eventContext eventsOfAlerts cleanOptional
  cleanString)

section Values

variable {s : Finset String} {f : String → String}

theorem card_kept_iff :
    ((s.image f).filter (· ≠ "")).card = s.card ↔
      (∀ x ∈ s, f x ≠ "") ∧ Set.InjOn f s := by
  have himage : (s.image f).card ≤ s.card := Finset.card_image_le
  have hfilter : ((s.image f).filter (· ≠ "")).card ≤ (s.image f).card :=
    Finset.card_filter_le _ _
  constructor
  · intro h
    have hkept : ((s.image f).filter (· ≠ "")).card = (s.image f).card := by omega
    have hcard : (s.image f).card = s.card := by omega
    refine ⟨fun x hx => ?_, Finset.card_image_iff.mp hcard⟩
    exact Finset.card_filter_eq_iff.mp hkept (f x) (Finset.mem_image_of_mem f hx)
  · rintro ⟨hne, hinj⟩
    have hkept : ∀ y ∈ s.image f, y ≠ "" := by
      intro y hy
      obtain ⟨x, hx, rfl⟩ := Finset.mem_image.mp hy
      exact hne x hx
    rw [Finset.card_filter_eq_iff.mpr hkept, Finset.card_image_iff.mpr hinj]

def valueSet (values : List (Option String)) : Finset String :=
  ((values.filterMap fun value => value).filter fun s => s ≠ "").toFinset

theorem mem_valueSet {values : List (Option String)} {x : String} :
    x ∈ valueSet values ↔ some x ∈ values ∧ x ≠ "" := by
  simp [valueSet]

theorem distinctValues_eq (values : List (Option String)) :
    distinctValues values = (valueSet values).card := by
  rw [distinctValues, valueSet, List.card_toFinset]

theorem cleanString_empty : cleanString "" 500 = "" := by
  decide

variable {alerts : List AlertRow} {events : EventTable}

theorem valueSet_cleaned (field : EventRow → Option String) :
    valueSet ((eventsOfAlerts alerts (linkedEvents alerts events)).map fun event =>
        cleanOptional (field event)) =
      ((valueSet ((linkedEvents alerts events).map field)).image
        (cleanString · 500)).filter (· ≠ "") := by
  ext x
  simp only [Finset.mem_filter, Finset.mem_image, mem_valueSet, List.mem_map,
    mem_eventsOfAlerts, cleanOptional]
  constructor
  · rintro ⟨⟨event, hevent, hvalue⟩, hne⟩
    obtain ⟨value, hfield, hclean⟩ := Option.map_eq_some_iff.mp hvalue
    refine ⟨⟨value, ⟨⟨event, hevent, hfield⟩, ?_⟩, hclean⟩, hne⟩
    intro hempty
    rw [hempty, cleanString_empty] at hclean
    exact hne hclean.symm
  · rintro ⟨⟨value, ⟨⟨event, hevent, hfield⟩, _⟩, hclean⟩, hne⟩
    refine ⟨⟨event, hevent, ?_⟩, hne⟩
    rw [hfield, Option.map_some, hclean]

theorem distinct_eq_iff (field : EventRow → Option String) :
    distinctValues ((eventsOfAlerts alerts (linkedEvents alerts events)).map fun event =>
        cleanOptional (field event)) =
      distinctValues ((linkedEvents alerts events).map field) ↔
        KeptApart field (linkedEvents alerts events) := by
  rw [distinctValues_eq, distinctValues_eq, valueSet_cleaned, card_kept_iff]
  have hmem : ∀ x, x ∈ valueSet ((linkedEvents alerts events).map field) ↔
      (∃ event ∈ linkedEvents alerts events, x ∈ field event) ∧ x ≠ "" := by
    intro x
    simp only [mem_valueSet, List.mem_map, Option.mem_def]
  constructor
  · rintro ⟨hne, hinj⟩ event hevent value hvalue hvalue'
    have hin := (hmem value).mpr ⟨⟨event, hevent, hvalue⟩, hvalue'⟩
    refine ⟨hne value hin, ?_⟩
    intro other hother value' hfield hnonempty hsame
    exact hinj hin ((hmem value').mpr ⟨⟨other, hother, hfield⟩, hnonempty⟩) hsame
  · intro hkept
    constructor
    · intro x hx
      obtain ⟨⟨event, hevent, hvalue⟩, hne⟩ := (hmem x).mp hx
      exact (hkept event hevent x hvalue hne).1
    · intro x hx y hy hsame
      obtain ⟨⟨event, hevent, hvalue⟩, hne⟩ := (hmem x).mp hx
      obtain ⟨⟨other, hother, hfield⟩, hne'⟩ := (hmem y).mp hy
      exact (hkept event hevent x hvalue hne).2 other hother y hfield hne' hsame

end Values

section Agreement

variable {alerts : List AlertRow} {events : EventTable}

theorem builder_map {V : Type} (f : Summary → V) (g : EventRow → V)
    (hfields : ∀ event, f (contextSummary (eventContext event)) = g event) :
    (builderSummaries alerts events).map f =
      (eventsOfAlerts alerts (linkedEvents alerts events)).map g := by
  simp only [builderSummaries, List.map_map]
  exact List.map_congr_left fun event _ => hfields event

theorem endpoint_map {V : Type} (f : Summary → V) (g : EventRow → V)
    (hfields : ∀ event, f (rowSummary event) = g event) :
    (endpointSummaries alerts events).map f = (linkedEvents alerts events).map g := by
  simp only [endpointSummaries, List.map_map]
  exact List.map_congr_left fun event _ => hfields event

theorem featureTotals_eq_iff {summaries summaries' : List Summary} :
    featureTotals summaries = featureTotals summaries' ↔
      (∀ name ∈ countedTypes, (summaries.map (·.eventType)).count name =
        (summaries'.map (·.eventType)).count name) ∧
      (summaries.map (·.severity)).count (some "critical") =
        (summaries'.map (·.severity)).count (some "critical") ∧
      (summaries.map (·.severity)).count (some "high") =
        (summaries'.map (·.severity)).count (some "high") ∧
      distinctValues (summaries.map (·.username)) = distinctValues (summaries'.map (·.username)) ∧
      distinctValues (summaries.map (·.sourceIp)) = distinctValues (summaries'.map (·.sourceIp)) ∧
      (summaries.map fun event => natural event.bytesSent).sum =
        (summaries'.map fun event => natural event.bytesSent).sum ∧
      (summaries.map fun event => natural event.bytesReceived).sum =
        (summaries'.map fun event => natural event.bytesReceived).sum := by
  have hlength : ∀ events : List Summary, (countedTypes.map fun name =>
      (name, (events.map (·.eventType)).count name)).length = 11 := fun _ => rfl
  constructor
  · intro h
    obtain ⟨hcounts, hrest⟩ := List.append_inj h ((hlength _).trans (hlength _).symm)
    simp only [List.cons.injEq, Prod.mk.injEq, true_and, and_true] at hrest
    refine ⟨?_, hrest⟩
    intro name hname
    have hpair := List.map_inj_left.mp hcounts name hname
    exact congrArg Prod.snd hpair
  · rintro ⟨hcounts, hcritical, hhigh, husers, hips, hsent, hreceived⟩
    have hpairs : (countedTypes.map fun name => (name, (summaries.map (·.eventType)).count name)) =
        countedTypes.map fun name => (name, (summaries'.map (·.eventType)).count name) := by
      refine List.map_congr_left fun name hname => ?_
      rw [hcounts name hname]
    rw [featureTotals, featureTotals, hpairs, hcritical, hhigh, husers, hips, hsent, hreceived]

theorem natural_eq_zero_iff (n : Option Int) : natural n = 0 ↔ n.getD 0 ≤ 0 :=
  Int.toNat_eq_zero

theorem totals_eq_iff :
    featureTotals (builderSummaries alerts events) =
        featureTotals (endpointSummaries alerts events) ↔ SeenAlike alerts events := by
  rw [featureTotals_eq_iff,
    builder_map (·.eventType) (·.eventType) fun _ => rfl,
    endpoint_map (·.eventType) (·.eventType) fun _ => rfl,
    builder_map (·.severity) (·.severity) fun _ => rfl,
    endpoint_map (·.severity) (·.severity) fun _ => rfl,
    builder_map (·.username) (fun event => cleanOptional event.username) fun _ => rfl,
    endpoint_map (·.username) (·.username) fun _ => rfl,
    builder_map (·.sourceIp) (fun event => cleanOptional event.sourceIp) fun _ => rfl,
    endpoint_map (·.sourceIp) (·.sourceIp) fun _ => rfl,
    builder_map (fun event => natural event.bytesSent) (fun event => natural event.bytesSent)
      fun _ => rfl,
    endpoint_map (fun event => natural event.bytesSent) (fun event => natural event.bytesSent)
      fun _ => rfl,
    builder_map (fun event => natural event.bytesReceived)
      (fun event => natural event.bytesReceived) fun _ => rfl,
    endpoint_map (fun event => natural event.bytesReceived)
      (fun event => natural event.bytesReceived) fun _ => rfl]
  simp only [count_eq_iff, total_eq_iff, distinct_eq_iff, natural_eq_zero_iff]
  constructor
  · rintro ⟨hcounts, hcritical, hhigh, husers, hips, hsent, hreceived⟩
    refine ⟨?_, husers, hips⟩
    intro event hevent hmany
    refine ⟨?_, hcritical event hevent hmany, hhigh event hevent hmany,
      hsent event hevent hmany, hreceived event hevent hmany⟩
    intro hcounted
    exact hcounts event.eventType hcounted event hevent hmany rfl
  · rintro ⟨hrepeated, husers, hips⟩
    refine ⟨?_, ?_, ?_, husers, hips, ?_, ?_⟩
    · intro name hname event hevent hmany heq
      rw [← heq] at hname
      exact (hrepeated event hevent hmany).1 hname
    · exact fun event hevent hmany => (hrepeated event hevent hmany).2.1
    · exact fun event hevent hmany => (hrepeated event hevent hmany).2.2.1
    · exact fun event hevent hmany => (hrepeated event hevent hmany).2.2.2.1
    · exact fun event hevent hmany => (hrepeated event hevent hmany).2.2.2.2

def Exact (events : List Summary) : Prop :=
  ∀ pair ∈ featureTotals events, pair.2 < 2 ^ 53

theorem featuresForEvents_exact {summaries : List Summary} (h : Exact summaries) :
    featuresForEvents summaries =
      some ((featureTotals summaries).map fun pair => (pair.1, (pair.2 : Rat))) := by
  simp only [featuresForEvents]
  generalize hpairs : featureTotals summaries = pairs
  have hall : ∀ pair ∈ pairs, pair.2 < 2 ^ 53 := fun pair hpair => h pair (hpairs ▸ hpair)
  clear hpairs h
  induction pairs with
  | nil => rfl
  | cons pair pairs ih =>
      have hfirst := PyFloat.ofNat_exact (hall pair List.mem_cons_self)
      have hrest := ih fun other hother => hall other (List.mem_cons_of_mem _ hother)
      simp only [List.mapM_cons, hfirst, hrest, Option.map_some, List.map_cons]
      rfl

theorem paths_agree_iff (alerts : List AlertRow) (events : EventTable) :
    (SeenAlike alerts events → featuresForEvents (builderSummaries alerts events) =
        featuresForEvents (endpointSummaries alerts events)) ∧
      (Exact (builderSummaries alerts events) → Exact (endpointSummaries alerts events) →
        featuresForEvents (builderSummaries alerts events) =
          featuresForEvents (endpointSummaries alerts events) → SeenAlike alerts events) := by
  constructor
  · intro halike
    rw [featuresForEvents, featuresForEvents, totals_eq_iff.mpr halike]
  · intro hexact hexact' hsame
    rw [featuresForEvents_exact hexact, featuresForEvents_exact hexact'] at hsame
    refine totals_eq_iff.mp ?_
    have hinjective : Function.Injective fun pair : String × Nat => (pair.1, (pair.2 : Rat)) := by
      intro pair pair' h
      simp only [Prod.mk.injEq, Nat.cast_inj] at h
      exact Prod.ext h.1 h.2
    exact hinjective.list_map (Option.some.inj hsame)

def failedLogin : EventRow where
  id := 1
  eventId := "evt_1"
  timestamp := 0
  source := "vpn"
  sourceType := "firewall"
  eventType := "login_failure"
  category := "authentication"
  severity := some "medium"
  username := some "alice"
  sourceIp := some "203.0.113.9"
  destinationIp := none
  hostname := none
  action := none
  status := none
  resource := none
  bytesSent := none
  bytesReceived := none

def raisedBy (id : Permissions.Uuid) (ruleId : String) : AlertRow where
  id := id
  eventId := 1
  ruleId := ruleId
  title := "Failed login"
  description := ""
  severity := "medium"
  confidence := ⟨false, 8, -1, PyFloat.normal_point_eight⟩
  sourceIp := some "203.0.113.9"
  username := some "alice"
  firstSeen := 0
  lastSeen := 0
  evidence := .obj []

theorem repeated_event_counted_twice :
    ∃ (alerts : List AlertRow) (events : EventTable),
      featuresForEvents (builderSummaries alerts events) ≠
        featuresForEvents (endpointSummaries alerts events) := by
  refine ⟨[raisedBy 1 "001", raisedBy 2 "002"], ⟨[failedLogin], List.nodup_singleton _⟩, ?_⟩
  decide +kernel

end Agreement

end Ml

import AiSoc.Investigation.Sanitized
import Mathlib.Algebra.Group.Action.Defs

namespace Investigation

open PyJson PyStr

section Smallest

def smallest (context : InvestigationContext) : InvestigationContext :=
  { context with
    timeline := lastItems 1 context.timeline
    events := lastItems 1 context.events
    alerts := lastItems 1 context.alerts
    incidentEvidence := context.incidentEvidence.take 1 }

theorem lastItems_of_length_le {α : Type} {items : List α} (h : ¬ items.length > 1) :
    lastItems 1 items = items := by
  have hzero : items.length - 1 = 0 := by omega
  rw [lastItems, hzero, List.drop_zero]

theorem lastItems_tail {α : Type} {items : List α} (h : items.length > 1) :
    lastItems 1 items.tail = lastItems 1 items := by
  have hlength : items.length - 1 = items.tail.length - 1 + 1 := by
    rw [List.length_tail]
    omega
  rw [lastItems, lastItems, hlength, ← List.drop_tail]

theorem take_dropLast {α : Type} {items : List α} (h : items.length > 1) :
    items.dropLast.take 1 = items.take 1 := by
  rw [List.dropLast_eq_take, List.take_take, min_eq_left (by omega)]

theorem smallest_of_popOne_none {context : InvestigationContext} (h : popOne context = none) :
    smallest context = context := by
  simp only [popOne] at h
  split at h
  · cases h
  · rename_i htimeline
    split at h
    · cases h
    · rename_i hevents
      split at h
      · cases h
      · rename_i halerts
        split at h
        · cases h
        · rename_i hevidence
          simp only [smallest, lastItems_of_length_le htimeline, lastItems_of_length_le hevents,
            lastItems_of_length_le halerts, List.take_of_length_le (Nat.le_of_not_lt hevidence)]

theorem smallest_popOne {context context' : InvestigationContext}
    (h : popOne context = some context') : smallest context' = smallest context := by
  simp only [popOne] at h
  split at h
  · rename_i htimeline
    cases h
    simp only [smallest, lastItems_tail htimeline]
  · split at h
    · rename_i hevents
      cases h
      simp only [smallest, lastItems_tail hevents]
    · split at h
      · rename_i halerts
        cases h
        simp only [smallest, lastItems_tail halerts]
      · split at h
        · rename_i hevidence
          cases h
          simp only [smallest, take_dropLast hevidence]
        · cases h

end Smallest

section Sizes

def arrayLength (items : List Json) : Nat :=
  (itemsText items).length

theorem arrayLength_sublist {α : Type} {f : α → Json} {items items' : List α}
    (h : items.Sublist items') : arrayLength (items.map f) ≤ arrayLength (items'.map f) :=
  length_itemsText_le (h.map f).subperm

-- the field names and the punctuation between them
def envelope : Nat :=
  (strText "incident").length + (strText "alerts").length + (strText "events").length +
    (strText "incident_evidence").length + (strText "timeline").length +
    (strText "techniques").length + (strText "valid_evidence_refs").length + 21

theorem serializedSize_eq (context : InvestigationContext) :
    serializedSize context =
      envelope + (text context.incident.toJson).length +
        arrayLength (context.alerts.map AlertContext.toJson) +
        arrayLength (context.events.map EventContext.toJson) +
        arrayLength (context.incidentEvidence.map EvidenceContext.toJson) +
        arrayLength (context.timeline.map .obj) +
        arrayLength (context.techniques.map TechniqueContext.toJson) +
        arrayLength (context.validEvidenceRefs.map .str) := by
  simp only [serializedSize, InvestigationContext.modelDump, strs, text, fieldsText, arrayLength,
    envelope, List.length_append, List.length_cons, List.length_nil]
  omega

theorem serializedSize_popOne {context context' : InvestigationContext}
    (h : popOne context = some context') : serializedSize context' ≤ serializedSize context := by
  rw [serializedSize_eq context, serializedSize_eq context']
  simp only [popOne] at h
  split at h
  · cases h
    have hle := arrayLength_sublist (f := .obj) (List.tail_sublist context.timeline)
    dsimp only
    omega
  · split at h
    · cases h
      have hle := arrayLength_sublist (f := EventContext.toJson) (List.tail_sublist context.events)
      dsimp only
      omega
    · split at h
      · cases h
        have hle :=
          arrayLength_sublist (f := AlertContext.toJson) (List.tail_sublist context.alerts)
        dsimp only
        omega
      · split at h
        · cases h
          have hle := arrayLength_sublist (f := EvidenceContext.toJson)
            (List.dropLast_sublist context.incidentEvidence)
          dsimp only
          omega
        · cases h

def refsLength (refs : List String) : Nat :=
  arrayLength (refs.map .str)

theorem serializedSize_refs (context : InvestigationContext) (refs : List String) :
    serializedSize { context with validEvidenceRefs := refs } +
        refsLength context.validEvidenceRefs =
      serializedSize context + refsLength refs := by
  rw [serializedSize_eq context, serializedSize_eq { context with validEvidenceRefs := refs }]
  simp only [refsLength]
  omega

end Sizes

section GivingUp

variable {py : PyText} {maxChars : Int} {context : InvestigationContext}

theorem popUntilFits_of_popOne {next : InvestigationContext}
    (hfits : ¬ serializedSize context ≤ maxChars) (hpop : popOne context = some next) :
    popUntilFits maxChars context = popUntilFits maxChars next := by
  rw [popUntilFits, if_neg hfits]
  split
  · rename_i hnone
    rw [hpop] at hnone
    cases hnone
  · rename_i next' hsome
    rw [hpop] at hsome
    cases hsome
    rfl

theorem popUntilFits_of_none (hfits : ¬ serializedSize context ≤ maxChars)
    (hpop : popOne context = none) :
    popUntilFits maxChars context = .error .contextTooLarge := by
  rw [popUntilFits, if_neg hfits]
  split
  · rfl
  · rename_i next hsome
    rw [hpop] at hsome
    cases hsome

theorem serializedSize_smallest_le (context : InvestigationContext) :
    serializedSize (smallest context) ≤ serializedSize context := by
  induction hn : itemCount context using Nat.strong_induction_on generalizing context with
  | _ n ih =>
      cases hpop : popOne context with
      | none => rw [smallest_of_popOne_none hpop]
      | some next =>
          rw [← smallest_popOne hpop]
          have hsmaller : itemCount next < n := hn ▸ popOne_itemCount hpop
          exact (ih _ hsmaller next rfl).trans (serializedSize_popOne hpop)

theorem popUntilFits_gives_up_iff :
    popUntilFits maxChars context = .error .contextTooLarge ↔
      maxChars < serializedSize (smallest context) := by
  induction context using popUntilFits.induct maxChars with
  | case1 context hfits =>
      rw [popUntilFits, if_pos hfits]
      have hsmall := serializedSize_smallest_le context
      refine iff_of_false (fun h => by cases h) ?_
      omega
  | case2 context hfits hnone =>
      rw [popUntilFits_of_none hfits hnone, smallest_of_popOne_none hnone]
      refine iff_of_true rfl ?_
      omega
  | case3 context hfits next hnext ih =>
      rw [popUntilFits_of_popOne hfits hnext, ih, smallest_popOne hnext]

theorem enforceSize_gives_up_iff :
    enforceSize py maxChars context = .error .contextTooLarge ↔
      maxChars < serializedSize context ∧
        maxChars < serializedSize (smallest (shorten py context)) := by
  rw [← popUntilFits_gives_up_iff, enforceSize]
  split
  · rename_i hfits
    refine iff_of_false (fun h => by cases h) fun h => ?_
    omega
  · rename_i hfits
    have hlarge : maxChars < serializedSize context := by omega
    cases hpop : popUntilFits maxChars (shorten py context) with
    | ok trimmed => exact iff_of_false (fun h => by cases h) fun h => by cases h.2
    | error e =>
        obtain rfl := popUntilFits_error hpop
        exact iff_of_true rfl ⟨hlarge, rfl⟩

def smallestKept (py : PyText) (context : InvestigationContext) : InvestigationContext :=
  { smallest (shorten py context) with
    validEvidenceRefs := retainedRefs (smallest (shorten py context)) }

theorem serializedSize_smallestKept (py : PyText) (context : InvestigationContext) :
    serializedSize (smallestKept py context) + refsLength context.validEvidenceRefs =
      serializedSize (smallest (shorten py context)) +
        refsLength (smallestKept py context).validEvidenceRefs :=
  serializedSize_refs (smallest (shorten py context)) _

theorem gives_up_only_if_too_large_iff (py : PyText) (maxChars : Int)
    (context : InvestigationContext) :
    (enforceSize py maxChars context = .error .contextTooLarge →
        maxChars < serializedSize (smallestKept py context)) ↔
      serializedSize context ≤ maxChars ∨
        maxChars < serializedSize (smallestKept py context) ∨
        serializedSize (smallestKept py context) + refsLength context.validEvidenceRefs ≤
          maxChars + refsLength (smallestKept py context).validEvidenceRefs := by
  have hsizes := serializedSize_smallestKept py context
  rw [enforceSize_gives_up_iff]
  constructor
  · intro h
    by_cases hfits : serializedSize context ≤ maxChars
    · exact .inl hfits
    · by_cases hkept : maxChars < serializedSize (smallestKept py context)
      · exact .inr (.inl hkept)
      · refine .inr (.inr ?_)
        have hstale : ¬ maxChars < serializedSize (smallest (shorten py context)) := fun hstale =>
          hkept (h ⟨not_le.mp hfits, hstale⟩)
        omega
  · rintro h ⟨hlarge, hstale⟩
    omega

end GivingUp

section ManyAlerts

theorem length_escape_ge (cs : List Char) : cs.length ≤ (escape cs).length := by
  induction cs with
  | nil => exact Nat.zero_le _
  | cons c cs ih =>
      have hchar : 1 ≤ (escapeChar c).length := by
        unfold escapeChar
        dsimp only
        split_ifs <;> simp
      simp only [escape, List.flatMap_cons, List.length_append, List.length_cons] at ih ⊢
      omega

theorem length_strText_ge (s : String) : s.length + 2 ≤ (strText s).length := by
  have hescape := length_escape_ge s.toList
  simp only [strText, List.length_append, List.length_cons, List.length_nil]
  rw [String.length_toList] at hescape
  omega

theorem refsLength_ge {refs : List String} {n : Nat} (h : ∀ ref ∈ refs, n ≤ ref.length) :
    (n + 3) * refs.length ≤ refsLength refs := by
  rw [refsLength, arrayLength, length_itemsText]
  split
  · rename_i hnil
    rw [List.map_eq_nil_iff.mp hnil]
    exact Nat.zero_le _
  · rw [List.map_map]
    have hall : ∀ length ∈ refs.map ((fun item => (text item).length + 1) ∘ Json.str),
        n + 3 ≤ length := by
      intro length hlength
      obtain ⟨ref, href, rfl⟩ := List.mem_map.mp hlength
      have hlow := length_strText_ge ref
      have hn := h ref href
      simp only [Function.comp_apply, text]
      omega
    have hsum := List.card_nsmul_le_sum _ (n + 3) hall
    rw [List.length_map, smul_eq_mul, Nat.mul_comm] at hsum
    exact hsum

theorem refsLength_subset {refs refs' : List String} (hnodup : refs.Nodup) (hsub : refs ⊆ refs') :
    refsLength refs ≤ refsLength refs' := by
  have hsubperm : (refs.map Json.str).Subperm (refs'.map Json.str) :=
    List.Subperm.map (fun _ _ h => Json.str.inj h) (hnodup.subperm hsub)
  exact length_itemsText_le hsubperm

theorem length_alertRef (alert : AlertRow) : (alertContext alert).ref.length = 42 := by
  have hstart : ("alert:" : String).length = 6 := by decide
  simp only [alertContext, String.length_append, length_uuidText, hstart]

theorem alertRefs_nodup {alerts : List AlertRow} (hids : (alerts.map (·.id)).Nodup)
    (hrange : ∀ alert ∈ alerts, alert.id < 2 ^ 128) :
    (alerts.map fun alert => (alertContext alert).ref).Nodup := by
  refine List.Nodup.map_on ?_ (List.Nodup.of_map _ hids)
  intro alert halert other hother href
  have htext : uuidText alert.id = uuidText other.id := by
    have hlist := congrArg String.toList href
    simp only [alertContext, String.toList_append] at hlist
    exact String.toList_inj.mp (List.append_cancel_left hlist)
  have hid := uuidText_inj (hrange alert halert) (hrange other hother) htext
  exact List.inj_on_of_nodup_map hids halert hother hid

theorem alerts_give_up {py : PyText} {maxChars : Int} {reads : ContextReads}
    {incident : IncidentRow} (hincident : reads.incident = some incident)
    (hids : (reads.alerts.map (·.id)).Nodup) (hrange : ∀ alert ∈ reads.alerts, alert.id < 2 ^ 128)
    (hmany : maxChars < 45 * reads.alerts.length) :
    build py maxChars reads = .error .contextTooLarge := by
  have hsub : (reads.alerts.map fun alert => (alertContext alert).ref) ⊆
      (untruncated reads incident).validEvidenceRefs := by
    intro ref href
    obtain ⟨alert, halert, rfl⟩ := List.mem_map.mp href
    rw [(untruncated_closed reads incident).cited]
    exact .inr (.inl ⟨alertContext alert, List.mem_map_of_mem halert, rfl⟩)
  have hrefs := refsLength_subset (alertRefs_nodup hids hrange) hsub
  have hcost : 45 * reads.alerts.length ≤
      refsLength (reads.alerts.map fun alert => (alertContext alert).ref) := by
    have hlength : ∀ ref ∈ reads.alerts.map fun alert => (alertContext alert).ref,
        42 ≤ ref.length := by
      intro ref href
      obtain ⟨alert, _, rfl⟩ := List.mem_map.mp href
      exact le_of_eq (length_alertRef alert).symm
    have hge := refsLength_ge hlength
    rwa [List.length_map] at hge
  have hsize : ∀ context : InvestigationContext,
      context.validEvidenceRefs = (untruncated reads incident).validEvidenceRefs →
        maxChars < serializedSize context := by
    intro context hcontext
    have hpart : refsLength context.validEvidenceRefs ≤ serializedSize context := by
      rw [serializedSize_eq context, refsLength]
      omega
    rw [hcontext] at hpart
    omega
  simp only [build, hincident]
  exact enforceSize_gives_up_iff.mpr ⟨hsize _ rfl, hsize _ rfl⟩

def smallAlerts (n : Nat) : List AlertRow :=
  (List.range n).map fun id => { oneAlert with id := id }

def smallAlertReads (n : Nat) : ContextReads :=
  ⟨some noIncident, smallAlerts n, [], [], [], none⟩

theorem small_alerts_give_up :
    build asciiText 5000 (smallAlertReads 112) = .error .contextTooLarge ∧
      serializedSize (smallestKept asciiText (untruncated (smallAlertReads 112) noIncident)) <
        1000 := by
  have hids : ((smallAlerts 112).map (·.id)).Nodup := by
    simp only [smallAlerts, List.map_map, Function.comp_def, List.map_id']
    exact List.nodup_range
  have hrange : ∀ alert ∈ smallAlerts 112, alert.id < 2 ^ 128 := by
    intro alert halert
    obtain ⟨id, hid, rfl⟩ := List.mem_map.mp halert
    exact lt_trans (List.mem_range.mp hid) (by decide)
  refine ⟨alerts_give_up rfl hids hrange ?_, by decide +kernel⟩
  simp only [smallAlertReads, smallAlerts, List.length_map, List.length_range]
  decide

end ManyAlerts

end Investigation
